import Orchestratord.Gateway.Outbound

/-! # Cutting a text into chunks

Each round of the splitter takes a chunk that fits off the front of the text and drops only
whitespace, so the chunks show what the text shows. -/

namespace Orchestratord.Gateway

open Foundation Text List

variable (chars : List Char)

/-- The characters that are not whitespace, in order. -/
def visible : List Char := chars.filter (! isSpace ·)

theorem visible_append (as bs : List Char) : visible (as ++ bs) = visible as ++ visible bs :=
  filter_append ..

theorem visible_lstrip : visible (chars.dropWhile isSpace) = visible chars := by
  have hbl : visible (chars.takeWhile isSpace) = [] := by
    refine filter_eq_nil_iff.mpr fun c hc => ?_
    simp [mem_takeWhile_imp hc]
  conv_rhs => rw [← chars.takeWhile_append_dropWhile (p := isSpace)]
  rw [visible_append, hbl, nil_append]

theorem visible_rstrip : visible (chars.reverse.dropWhile isSpace).reverse = visible chars := by
  have hre : ∀ cs : List Char, visible cs.reverse = (visible cs).reverse := fun cs => filter_reverse
  rw [hre, visible_lstrip, hre, reverse_reverse]

variable {rounds : ℕ}

section

variable {n : ℕ} {remaining : List Char}

theorem rfind_eq_some {c : Char} {text : List Char} {stop i : ℕ} (h : rfind c text stop = some i) :
    i < stop ∧ text[i]? = some c := by
  obtain ⟨j, hj, rfl⟩ := Option.map_eq_some_iff.mp h
  obtain ⟨hlt, hc, -⟩ := findIdx?_eq_some_iff_getElem.mp hj
  rw [length_reverse] at hlt
  have hst := text.length_take_le stop
  rw [getElem_reverse, beq_iff_eq] at hc
  refine ⟨by omega, ?_⟩
  rw [← hc, getElem_take]
  exact getElem?_eq_getElem _

/-- The cut is within the chunk size, and not before the first character unless that is a
blank. -/
theorem cutAt_spec (n : ℕ) (remaining : List Char) : cutAt n remaining ≤ n ∧
    (cutAt n remaining = 0 → n = 0 ∨ ∃ c, isSpace c ∧ remaining[0]? = some c) := by
  unfold cutAt
  split
  case h_1 cut hcut =>
    obtain ⟨hlt, hc⟩ := rfind_eq_some hcut
    exact ⟨hlt.le, fun h => .inr ⟨'\n', rfl, h ▸ hc⟩⟩
  · split
    case h_1 cut hcut =>
      obtain ⟨hlt, hc⟩ := rfind_eq_some hcut
      exact ⟨hlt.le, fun h => .inr ⟨' ', rfl, h ▸ hc⟩⟩
    · exact ⟨le_rfl, .inl⟩

/-- A round takes at least one character off a text that is too long. -/
theorem round_progress (hn : 1 ≤ n) (hlo : n < remaining.length) :
    ((remaining.drop (cutAt n remaining)).dropWhile isSpace).length < remaining.length := by
  have hst : ∀ cs : List Char, (cs.dropWhile isSpace).length ≤ cs.length :=
    fun cs => (dropWhile_suffix _).length_le
  rcases Nat.eq_zero_or_pos (cutAt n remaining) with hze | hpos
  · obtain ⟨c, hsp, hc⟩ := ((cutAt_spec n remaining).2 hze).resolve_left (by omega)
    rw [hze, drop_zero]
    cases remaining with
    | nil => cases hc
    | cons first rest =>
      obtain rfl : first = c := by simpa using hc
      rw [dropWhile_cons_of_pos hsp]
      exact Nat.lt_succ_of_le (hst rest)
  · have hdr := hst (remaining.drop (cutAt n remaining))
    rw [length_drop] at hdr
    omega

/-- A chunk is within the chunk size, however often the loop goes round. -/
theorem length_le_of_mem_splitLoop {chunk : List Char}
    (h : chunk ∈ splitLoop n rounds remaining) : chunk.length ≤ n := by
  induction rounds generalizing remaining with
  | zero => cases h
  | succ rounds ih =>
    rw [splitLoop] at h
    split_ifs at h with hem hsh
    · cases h
    · rwa [mem_singleton.mp h]
    rcases mem_cons.mp h with rfl | h
    · have hst := (dropWhile_suffix (l := (remaining.take (cutAt n remaining)).reverse)
        isSpace).length_le
      have hcut := (cutAt_spec n remaining).1
      simp only [length_reverse, length_take] at hst ⊢
      omega
    · exact ih h

/-- The loop comes to an end when it has enough rounds, with everything that was to be seen. -/
structure Cut (n rounds : ℕ) (remaining : List Char) : Prop where
  shows : visible (splitLoop n rounds remaining).flatten = visible remaining
  ends : ∀ more, rounds ≤ more → splitLoop n more remaining = splitLoop n rounds remaining

theorem cut_of_lt (hn : 1 ≤ n) (hrn : remaining.length < rounds) : Cut n rounds remaining := by
  induction rounds generalizing remaining with
  | zero => omega
  | succ rounds ih =>
    have hmo : ∀ more, rounds + 1 ≤ more → ∃ later, rounds ≤ later ∧ more = later + 1 :=
      fun more h => ⟨more - 1, by omega, by omega⟩
    by_cases hem : remaining.isEmpty
    · obtain rfl := isEmpty_iff.mp hem
      refine ⟨rfl, fun more h => ?_⟩
      obtain ⟨_, -, rfl⟩ := hmo more h
      rfl
    by_cases hsh : remaining.length ≤ n
    · have hla : ∀ later, splitLoop n (later + 1) remaining = [remaining] := by
        intro _
        simp [splitLoop, hem, hsh]
      refine ⟨by simp [hla], fun more h => ?_⟩
      obtain ⟨_, -, rfl⟩ := hmo more h
      rw [hla, hla]
    · have hpr := round_progress hn (not_le.mp hsh)
      have hne := ih (lt_of_lt_of_le hpr (Nat.le_of_lt_succ hrn))
      have hro : ∀ later, splitLoop n (later + 1) remaining = _ :: _ := fun later => by
        rw [splitLoop, if_neg hem, if_neg hsh]
      refine ⟨?_, fun more h => ?_⟩
      · rw [hro, flatten_cons, visible_append, visible_rstrip, hne.shows, visible_lstrip,
          ← visible_append, take_append_drop]
      · obtain ⟨later, hlt, rfl⟩ := hmo more h
        rw [hro, hro, hne.ends later hlt]

end

/-- The pieces of a text are not empty and within the chunk size. -/
theorem piece_spec {text chunk : String} {n : ℕ} (h : chunk ∈ splitText text n) :
    chunk ≠ "" ∧ chunk.length ≤ n := by
  dsimp only [splitText] at h
  split_ifs at h with hsh hte
  · cases h
  · obtain rfl := mem_singleton.mp h
    exact ⟨hte, by rwa [← String.length_toList]⟩
  obtain ⟨_, hch, rfl⟩ := mem_map.mp h
  obtain ⟨hmem, _⟩ := mem_filter.mp hch
  refine ⟨?_, ?_⟩
  · intro _
    simp_all
  · rw [← String.length_toList, String.toList_ofList]
    exact length_le_of_mem_splitLoop hmem

/-- Cutting a text comes to an end, whatever the rounds allowed beyond its length; the chunks are
not empty and fit, and together they show what the text shows. -/
theorem splitText_faithful (text : String) {n : ℕ} (hn : 1 ≤ n) :
    (∀ rounds, text.toList.length < rounds → splitLoop n rounds text.toList =
      splitLoop n (text.toList.length + 1) text.toList) ∧
    (∀ chunk ∈ splitText text n, chunk ≠ "" ∧ chunk.length ≤ n) ∧
    visible ((splitText text n).flatMap String.toList) = visible text.toList := by
  have hcut := cut_of_lt hn (Nat.lt_succ_self text.toList.length)
  refine ⟨fun rounds h => hcut.ends rounds h, fun chunk => piece_spec, ?_⟩
  dsimp only [splitText]
  split_ifs with hsh hte
  · simp [hte]
  · simp
  · rw [← hcut.shows]
    simp [flatMap, flatten_filter_not_isEmpty]

theorem splitText_faithful_lines :
    visible ((splitText "ab cd\nef" 4).flatMap String.toList) = visible "ab cd\nef".toList :=
  (splitText_faithful "ab cd\nef" (by decide : 1 ≤ 4)).2.2

end Orchestratord.Gateway
