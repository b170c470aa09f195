import Orchestratord.Foundation.Dict
import Orchestratord.Foundation.Runs

/-! # The rate limit of a peer

A bucket for each key: it fills at a fixed rate up to its size, and a request takes a token out.
The tokens in the bucket pay for the grants, and time pays for the tokens. Times are in seconds,
exact, and read off a clock that does not go back. -/

namespace Orchestratord.Peer

open Foundation List Option

structure Rate where
  rps : ℚ
  burst : ℚ
  rps_pos : 0 < rps
  one_le_burst : 1 ≤ burst

/-- The limits that are kept, given those that are asked for. -/
def Rate.ofConfig (rps : ℚ) (burst : ℤ) : Rate where
  rps := max rps (1 / 1000)
  burst := max (burst : ℚ) 1
  rps_pos := lt_max_of_lt_right (by norm_num)
  one_le_burst := le_max_right _ _

structure TokenBucket (rate : Rate) where
  tokens : Dict String ℚ := .empty
  updated : Dict String ℚ := .empty

/-- A key and the time it asks. -/
abbrev Request := String × ℚ

namespace TokenBucket

variable {rate : Rate} (b : TokenBucket rate) (key : String) (now : ℚ)

def current : ℚ :=
  min rate.burst
    ((b.tokens.get key).getD rate.burst + (now - (b.updated.get key).getD now) * rate.rps)

/-- `none` if a token was taken, otherwise the seconds to wait. -/
def tryAcquire : Option ℚ × TokenBucket rate :=
  let current := b.current key now
  let updated := b.updated.set key now
  if 1 ≤ current then (none, { tokens := b.tokens.set key (current - 1), updated })
  else (some ((1 - current) / rate.rps), { tokens := b.tokens.set key current, updated })

def serve (b : TokenBucket rate) (request : Request) : TokenBucket rate :=
  (b.tryAcquire request.1 request.2).2

def Grants (request : Request) : Prop :=
  request.1 = key ∧ (b.tryAcquire request.1 request.2).1 = none

instance (request : Request) : Decidable (b.Grants key request) :=
  inferInstanceAs (Decidable (_ ∧ _))

/-- How often the key is granted a token in a window of time. -/
def grants (start stop : ℚ) : TokenBucket rate → List Request → ℕ
  | _, [] => 0
  | b, request :: rest => grants start stop (b.serve request) rest +
      if b.Grants key request ∧ start ≤ request.2 ∧ request.2 ≤ stop then 1 else 0

/-! ## The bucket over time -/

/-- Without a request the bucket fills, and not faster than at its rate. -/
theorem current_grows {now later : ℚ} (h : now ≤ later) : b.current key now ≤ b.current key later ∧
      b.current key later ≤ b.current key now + rate.rps * (later - now) := by
  have hga : 0 ≤ rate.rps * (later - now) := mul_nonneg rate.rps_pos.le (sub_nonneg.mpr h)
  unfold current
  cases b.updated.get key with
  | none =>
    simp only [getD_none, sub_self]
    exact ⟨le_rfl, le_add_of_nonneg_right hga⟩
  | some since =>
    have hsum : (later - since) * rate.rps = (now - since) * rate.rps + rate.rps * (later - now) := by
      ring
    simp only [getD_some, hsum, ← add_assoc]
    refine ⟨min_le_min_left _ (le_add_of_nonneg_right hga), ?_⟩
    rw [← min_add_add_right]
    exact min_le_min_right _ (le_add_of_nonneg_right hga)

variable {request : Request}

theorem current_serve_of_ne (h : request.1 ≠ key) (later : ℚ) :
    (b.serve request).current key later = b.current key later := by
  dsimp only [serve, tryAcquire]
  split <;> simp [current, h.symm]

theorem grants_iff : b.Grants key request ↔ request.1 = key ∧ 1 ≤ b.current key request.2 := by
  unfold Grants tryAcquire
  constructor
  · rintro ⟨rfl, hno⟩
    refine ⟨rfl, ?_⟩
    by_contra hfew
    simp [hfew] at hno
  · rintro ⟨rfl, hone⟩
    simp [hone]

/-- A grant takes one token out, and nothing else does. -/
theorem current_serve (request : Request) : (b.serve request).current key request.2 =
      b.current key request.2 - if b.Grants key request then 1 else 0 := by
  by_cases hkey : request.1 = key
  · subst hkey
    have hfu : b.current request.1 request.2 ≤ rate.burst := min_le_left _ _
    simp only [grants_iff, true_and, serve, tryAcquire]
    split
    · have hle : b.current request.1 request.2 - 1 ≤ rate.burst := by linarith
      show min rate.burst _ = _
      simp [hle]
    · show min rate.burst _ = _
      simp [hfu]
  · rw [b.current_serve_of_ne key hkey, if_neg fun h => hkey h.1, sub_zero]

theorem current_serve_nonneg (h : 0 ≤ b.current key request.2) :
    0 ≤ (b.serve request).current key request.2 := by
  rw [current_serve]
  split
  case isTrue hgr =>
    have hone := ((b.grants_iff key).mp hgr).2
    linarith
  · simpa using h

/-! ## Windows -/

section Windows

variable {requests : List Request} {start stop : ℚ}

theorem grants_eq_zero (hla : ∀ request ∈ requests, stop < request.2) :
    grants key start stop b requests = 0 := by
  induction requests generalizing b with
  | nil => rfl
  | cons _ _ ih =>
    obtain ⟨hnow, hre⟩ := forall_mem_cons.mp hla
    rw [grants, ih _ hre, if_neg fun h => (h.2.2.trans_lt hnow).false]

/-- The grants up to `stop` are paid for by the tokens that are there and by those to come. -/
theorem grants_le {now : ℚ} (hcl : requests.Pairwise (·.2 ≤ ·.2))
    (hnow : ∀ request ∈ requests, now ≤ request.2) (hst : now ≤ stop)
    (hto : 0 ≤ b.current key now) :
    (grants key start stop b requests : ℚ) ≤ b.current key now + rate.rps * (stop - now) := by
  have hbo : 0 ≤ b.current key now + rate.rps * (stop - now) :=
    add_nonneg hto (mul_nonneg rate.rps_pos.le (sub_nonneg.mpr hst))
  induction requests generalizing b now with
  | nil => exact hbo
  | cons request _ ih =>
    obtain ⟨hla, hcl⟩ := pairwise_cons.mp hcl
    obtain ⟨hfi, _⟩ := b.current_grows key (hnow request mem_cons_self)
    rcases le_or_gt request.2 stop with hin | hout
    · have hle := b.current_serve_nonneg key (hto.trans hfi)
      have hre := ih (b.serve request) hcl hla hin hle
        (add_nonneg hle (mul_nonneg rate.rps_pos.le (sub_nonneg.mpr hin)))
      rw [current_serve] at hre
      rw [grants]
      push_cast
      by_cases hgr : b.Grants key request
      · rw [if_pos hgr] at hre
        split <;> linarith
      · rw [if_neg fun h => hgr h.1]
        rw [if_neg hgr] at hre
        linarith
    · rw [b.grants_eq_zero key (forall_mem_cons.mpr
        ⟨hout, fun later hmem => hout.trans_le (hla later hmem)⟩)]
      exact hbo

/-- From the first request in the window on there is at most one full bucket and what comes in. -/
theorem grants_window {length : ℚ} (hcl : requests.Pairwise (·.2 ≤ ·.2)) (hle : 0 ≤ length)
    (hto : ∀ request ∈ requests, 0 ≤ b.current key request.2) :
    (grants key start (start + length) b requests : ℚ) ≤ rate.burst + rate.rps * length := by
  have hbo : 0 ≤ rate.burst + rate.rps * length :=
    add_nonneg (zero_le_one.trans rate.one_le_burst) (mul_nonneg rate.rps_pos.le hle)
  induction requests generalizing b with
  | nil => exact hbo
  | cons request _ ih =>
    obtain ⟨hla, hre⟩ := pairwise_cons.mp hcl
    have hfi := hto request mem_cons_self
    rcases lt_or_ge request.2 start with hea | hst
    · rw [grants, if_neg fun h => (h.2.1.trans_lt hea).false]
      refine ih (b.serve request) hre fun later hmem => ?_
      exact (b.current_serve_nonneg key hfi).trans (current_grows _ key (hla later hmem)).1
    · rcases le_or_gt request.2 (start + length) with hin | hout
      · refine (b.grants_le key hcl (forall_mem_cons.mpr ⟨le_rfl, hla⟩) hin hfi).trans ?_
        refine add_le_add (min_le_left _ _) (mul_le_mul_of_nonneg_left ?_ rate.rps_pos.le)
        linarith
      · rw [b.grants_eq_zero key (forall_mem_cons.mpr
          ⟨hout, fun later hmem => hout.trans_le (hla later hmem)⟩)]
        exact hbo

end Windows

/-! ## Waiting -/

theorem current_after {others : List Request} (hot : ∀ request ∈ others, request.1 ≠ key)
    (later : ℚ) : (runFrom serve b others).current key later = b.current key later := by
  induction others generalizing b with
  | nil => rfl
  | cons _ _ ih =>
    obtain ⟨hkey, hre⟩ := forall_mem_cons.mp hot
    exact (ih _ hre).trans (b.current_serve_of_ne key hkey later)

/-- After the time that was named there is a token in the bucket again. -/
theorem one_le_current {now wait later : ℚ} (hwa : (b.tryAcquire key now).1 = some wait)
    (hla : now + wait ≤ later) : 1 ≤ (b.serve (key, now)).current key later := by
  unfold tryAcquire at hwa
  unfold serve tryAcquire
  dsimp only at hwa ⊢
  split
  case isTrue h => simp [h] at hwa
  rename_i h
  rw [if_neg h, some.injEq] at hwa
  have hga : 1 - b.current key now ≤ (later - now) * rate.rps := by
    rw [← div_le_iff₀ rate.rps_pos]
    linarith
  rw [current]
  simp only [Dict.get_set_self, getD_some]
  exact le_min rate.one_le_burst (by linarith)

/-- Whatever other keys ask for: in no window of time does a key get more than a full bucket and
what comes in meanwhile, and a key that waits as long as it was told gets a token. -/
theorem rate_limited (rps : ℚ) (burst : ℤ) (key : String) (requests : List Request)
    (hclock : requests.Pairwise (·.2 ≤ ·.2)) :
    let b : TokenBucket (.ofConfig rps burst) := {}
    (∀ start length, 0 ≤ length → (grants key start (start + length) b requests : ℚ) ≤
      max (burst : ℚ) 1 + max rps (1 / 1000) * length) ∧
    ∀ now wait, ((runFrom serve b requests).tryAcquire key now).1 = some wait →
      ∀ others : List Request, (∀ request ∈ others, request.1 ≠ key) → ∀ later, now + wait ≤ later →
        ((runFrom serve b (requests ++ (key, now) :: others)).tryAcquire key later).1 = none := by
  intro b
  constructor
  · intro _ _ hle
    refine b.grants_window key hclock hle fun request _ => ?_
    have hone := (Rate.ofConfig rps burst).one_le_burst
    simp only [current, b, Dict.get_empty, getD_none, sub_self, zero_mul, add_zero, min_self]
    linarith
  · intro _ _ hwa _ hot _ hla
    have hone := one_le_current _ key hwa hla
    rw [← current_after _ key hot] at hone
    rw [runFrom_append, runFrom_cons, tryAcquire, if_pos hone]

theorem rate_limited_two :
    (grants "p" 0 (0 + 1) ({} : TokenBucket (.ofConfig 1 1)) [("p", 0), ("p", 1 / 2)] : ℚ) ≤
      max ((1 : ℤ) : ℚ) 1 + max 1 (1 / 1000) * 1 :=
  (rate_limited 1 1 "p" [("p", 0), ("p", 1 / 2)] (by norm_num)).1 0 1 (by norm_num)

/-- A rate below a thousandth is raised to it: two grants in a thousand seconds. -/
theorem slow_rate_raised : ¬ (grants "p" 0 (0 + 1000) ({} : TokenBucket (.ofConfig (1 / 2000) 1))
      [("p", 0), ("p", 1000)] : ℚ) ≤ 1 + 1 / 2000 * 1000 := by
  decide +kernel

end TokenBucket

end Orchestratord.Peer
