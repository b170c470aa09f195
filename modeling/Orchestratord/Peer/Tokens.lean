import Orchestratord.Foundation.Runs
import Orchestratord.Peer.Registry

/-! # Who a token speaks for

A token is to speak for a peer while the accepted row of the peer is bound to it, and for the time
of grace after it was rotated out of that row. The check also takes any live token with the name of
the peer, so this holds as long as no row is accepted while such a token is left from before. -/

namespace Orchestratord.Peer.Registry

open Foundation Option Dict

namespace Tables

variable (t : Tables) (p : PeerKey)

/-- A request with the token is taken for one of the peer, under some identity header. -/
def Authenticates (secret : Nat) : Prop :=
  ∃ header row, t.requirePeerAuth header secret = .ok (p, row)

/-- The token was rotated out of a row, less than the time of grace ago. -/
def InGrace (row : PeerRow) (secret : Nat) : Prop :=
  ∃ rotation ∈ t.rotations, rotation.rowId = row.id ∧ rotation.tokenId = secret ∧
    t.clock < rotation.time + rotation.grace

/-- The peer has an accepted row that is bound to the token, or that it was rotated out of. -/
def Entitled (secret : Nat) : Prop :=
  ∃ row, t.peers.get p = some row ∧ row.status = .accepted ∧
    (row.tokenId = some secret ∨ t.InGrace row secret)

instance (row : PeerRow) (secret : Nat) : Decidable (t.InGrace row secret) := by
  unfold InGrace
  infer_instance

instance (secret : Nat) : Decidable (t.Entitled p secret) :=
  match hget : t.peers.get p with
  | none => .isFalse (by simp [Entitled, hget])
  | some row => decidable_of_iff
      (row.status = .accepted ∧ (row.tokenId = some secret ∨ t.InGrace row secret))
      (by simp [Entitled, hget])

/-! ## Careful operations -/

/-- Every token with the name of the peer has expired. -/
def NoLiveToken : Prop :=
  ∀ k token, t.tokens.get k = some token → token.workspaceId = p.1 → token.name = tokenName p.2 →
    isExpired t.clock token = true

/-- A row is accepted only when no token with its name is left, the time of grace is not negative,
and the id of an orchestrator can be written in a header. -/
def Careful : Input → Prop
  | .invite p trusted => (∃ header, Text.strip header = p.2) ∧ (trusted = true → t.NoLiveToken p)
  | .accept rowId => ∀ p row, t.rowById rowId = some (p, row) → t.NoLiveToken p
  | .rotate _ grace => 0 ≤ grace
  | .selfRotate _ _ grace => 0 ≤ grace
  | _ => True

/-! ## The tables of a careful run -/

/-- A token that was issued for a peer. -/
def Named (p : PeerKey) (token : AuthToken) : Prop :=
  token.workspaceId = p.1 ∧ token.name = tokenName p.2

/-- What holds of every row and token. -/
structure Sound : Prop where
  /-- The name of a peer can be claimed. -/
  claimable : ∀ p row, t.peers.get p = some row → p.2 ≠ "" ∧ ∃ header, Text.strip header = p.2
  rowIds : ∀ p row, t.peers.get p = some row → row.id < t.nextId
  rows : ∀ p p' row row', t.peers.get p = some row → t.peers.get p' = some row' → row.id = row'.id →
    p = p'
  tokens : ∀ k token, t.tokens.get k = some token → k < t.nextId ∧ token.scopes = ["peer.*"]
  rotationIds : ∀ rotation ∈ t.rotations, rotation.rowId < t.nextId
  /-- A token that was rotated out of a row expires at the end of the time of grace. -/
  rotated : ∀ rotation ∈ t.rotations, ∀ p row, t.peers.get p = some row → row.id = rotation.rowId →
    ∃ token, t.tokens.get rotation.tokenId = some token ∧ Named p token ∧
      token.issuedTo = row.id ∧ token.expiresAt = some (rotation.time + rotation.grace)

/-- What holds of the row of a peer, if it has one. -/
structure Settled (p : PeerKey) (row : PeerRow) : Prop where
  /-- The row is bound to a token of its own that does not expire. -/
  bound : ∀ k, row.tokenId = some k →
    ∃ token, t.tokens.get k = some token ∧ Named p token ∧ token.issuedTo = row.id ∧
      token.expiresAt = none
  accepted : row.status = .accepted → row.tokenId ≠ none
  /-- No other token with the name of an accepted row is live. -/
  live : row.status = .accepted → ∀ k token, t.tokens.get k = some token → Named p token →
    isExpired t.clock token = false → row.tokenId = some k ∨ t.InGrace row k

structure Inv : Prop extends Sound t where
  settled : ∀ p row, t.peers.get p = some row → t.Settled p row

variable {t : Tables} {p : PeerKey} {row : PeerRow} {secret : Nat} {token : AuthToken}

/-! ## The check in such tables -/

theorem tokenName_injective : Function.Injective tokenName := by
  intro a b h
  simpa [tokenName] using h

theorem getPeerByTokenId_some {orchId : String}
    (h : t.getPeerByTokenId secret orchId = some (p, row)) :
    t.peers.get p = some row ∧ row.tokenId = some secret ∧ p.2 = orchId := by
  have hmem := t.peers.get_of_mem (List.mem_of_find?_eq_some h)
  have hfo := List.find?_some h
  simp only [decide_eq_true_eq] at hfo
  exact ⟨hmem, hfo⟩

theorem claimedPeer_some {orchHeader : String}
    (h : t.claimedPeer secret token orchHeader = some (p, row)) :
    t.peers.get p = some row ∧ (row.tokenId = some secret ∨ Named p token) := by
  unfold claimedPeer at h
  rcases hfo : t.getPeerByTokenId secret orchHeader with _ | ⟨p', row'⟩
  · rw [hfo] at h
    obtain ⟨hna, h⟩ := ite_none_right_eq_some.mp h
    obtain ⟨_, hget, hrow⟩ := map_eq_some_iff.mp h
    cases hrow
    exact ⟨hget, .inr ⟨rfl, hna⟩⟩
  · rw [hfo] at h
    cases h
    obtain ⟨hrow, hbo, -⟩ := getPeerByTokenId_some hfo
    exact ⟨hrow, .inl hbo⟩

variable {p' : PeerKey}

/-- A token that is bound to a row has the name of its peer. -/
theorem Inv.key_eq_of_bound (h : Inv t) (hrow : t.peers.get p' = some row)
    (hbo : row.tokenId = some secret) (hget : t.tokens.get secret = some token)
    (hna : Named p token) : p' = p := by
  obtain ⟨_, hget', hna', -⟩ := (h.settled p' row hrow).bound secret hbo
  obtain rfl := some.inj (hget.symm.trans hget')
  exact Prod.ext (hna'.1.symm.trans hna.1) (tokenName_injective (hna'.2.symm.trans hna.2))

variable {header : String}

/-- A live token with the name of an accepted row is taken for it. -/
theorem Inv.requirePeerAuth_of_named (h : Inv t) (hhe : Text.strip header = p.2)
    (hrow : t.peers.get p = some row) (hac : row.status = .accepted)
    (hget : t.tokens.get secret = some token) (hna : Named p token)
    (hli : isExpired t.clock token = false) : t.requirePeerAuth header secret = .ok (p, row) := by
  have hsc := (h.tokens secret token hget).2
  have hpe : t.claimedPeer secret token p.2 = some (p, row) := by
    unfold claimedPeer
    rcases hfo : t.getPeerByTokenId secret p.2 with _ | ⟨p', row'⟩
    · -- not bound any more: the name leads to the row
      have hp : (token.workspaceId, p.2) = p := Prod.ext hna.1 rfl
      simp [hna.2, hp, hrow]
    · obtain ⟨hrow', hbo, -⟩ := getPeerByTokenId_some hfo
      obtain rfl := h.key_eq_of_bound hrow' hbo hget hna
      obtain rfl := some.inj (hrow.symm.trans hrow')
      rfl
  unfold requirePeerAuth
  rw [hhe, if_neg (h.claimable p row hrow).1, hget]
  dsimp only
  rw [hli, hsc, hpe]
  simp [hac, Text.startsWith]

theorem requirePeerAuth_ok (h : t.requirePeerAuth header secret = .ok (p, row)) :
    t.peers.get p = some row ∧ row.status = .accepted ∧
      ∃ token, t.tokens.get secret = some token ∧ isExpired t.clock token = false ∧
        (row.tokenId = some secret ∨ Named p token) := by
  dsimp only [requirePeerAuth] at h
  split at h
  · cases h
  split at h
  · cases h
  rename_i token hget
  split at h
  · cases h
  rename_i hli
  split at h
  · cases h
  split at h
  · cases h
  rename_i hpe
  split at h
  case isFalse => cases h
  rename_i hac
  cases h
  obtain ⟨hrow, hbo⟩ := claimedPeer_some hpe
  exact ⟨hrow, hac, token, hget, by simpa using hli, hbo⟩

/-- In the tables of a careful run, a token is taken for a peer exactly if it speaks for it. -/
theorem Inv.authenticates_iff (h : Inv t) : t.Authenticates p secret ↔ t.Entitled p secret := by
  constructor
  · rintro ⟨_, row, hok⟩
    obtain ⟨hrow, hac, _, hget, hli, hbo | hna⟩ := requirePeerAuth_ok hok
    · exact ⟨row, hrow, hac, .inl hbo⟩
    · exact ⟨row, hrow, hac, (h.settled p row hrow).live hac _ _ hget hna hli⟩
  · rintro ⟨row, hrow, hac, hbo | ⟨rotation, hro, hid, rfl, hti⟩⟩
    · obtain ⟨_, hget, hna, -, hne⟩ := (h.settled p row hrow).bound secret hbo
      obtain ⟨header, hhe⟩ := (h.claimable p row hrow).2
      refine ⟨header, row, h.requirePeerAuth_of_named hhe hrow hac hget hna ?_⟩
      simp [isExpired, hne]
    · obtain ⟨_, hget, hna, -, hex⟩ := h.rotated rotation hro p row hrow hid.symm
      obtain ⟨header, hhe⟩ := (h.claimable p row hrow).2
      refine ⟨header, row, h.requirePeerAuth_of_named hhe hrow hac hget hna ?_⟩
      simpa [isExpired, hex] using hti

/-! ## Operations -/

theorem Inv.advance (h : Inv t) (microseconds : Nat) :
    Inv { t with clock := t.clock + microseconds } := by
  refine ⟨{ h with }, ?_⟩
  intro p row hrow
  have hse := h.settled p row hrow
  refine ⟨hse.bound, hse.accepted, ?_⟩
  intro hac k token hget hna hli
  have hli : isExpired (t.clock + microseconds) token = false := hli
  have hbe : isExpired t.clock token = false := by
    unfold isExpired at hli ⊢
    rcases hex : token.expiresAt with _ | expiresAt
    · rfl
    · rw [hex] at hli
      simp only [any_some, decide_eq_false_iff_not] at hli ⊢
      omega
  rcases hse.live hac k token hget hna hbe with
    hbo | ⟨rotation, hro, hid, rfl, -⟩
  · exact .inl hbo
  -- the expiry of the token is the end of its time of grace
  obtain ⟨_, hget', -, -, hex⟩ := h.rotated rotation hro p row hrow hid.symm
  obtain rfl := some.inj (hget.symm.trans hget')
  exact .inr ⟨rotation, hro, hid, rfl, by simpa [isExpired, hex] using hli⟩

theorem Inv.upsertPeer (h : Inv t) (hem : p.2 ≠ "") (hcl : ∃ header, Text.strip header = p.2) :
    Inv (t.upsertPeer p) := by
  unfold Tables.upsertPeer
  rcases hget : t.peers.get p with _ | row
  · have hca : ∀ p' row', (t.peers.set p { id := t.nextId }).get p' = some row' →
        t.peers.get p' = some row' ∨ p' = p ∧ row' = { id := t.nextId } := by
      intro _ _ hrow
      rw [get_set] at hrow
      split at hrow
      case isTrue hp => exact .inr ⟨hp, (some.inj hrow).symm⟩
      · exact .inl hrow
    refine ⟨⟨?_, ?_, ?_, ?_, ?_, ?_⟩, ?_⟩
    · intro p' row' hrow
      rcases hca p' row' hrow with hold | ⟨rfl, -⟩
      · exact h.claimable p' row' hold
      · exact ⟨hem, hcl⟩
    · intro p' row' hrow
      rcases hca p' row' hrow with hold | ⟨-, rfl⟩
      · exact Nat.lt_succ_of_lt (h.rowIds p' row' hold)
      · exact Nat.lt_succ_self _
    · intro p₁ p₂ row₁ row₂ hrow₁ hrow₂ hid
      rcases hca p₁ row₁ hrow₁ with hold₁ | ⟨rfl, rfl⟩
      · rcases hca p₂ row₂ hrow₂ with hold₂ | ⟨rfl, rfl⟩
        · exact h.rows p₁ p₂ row₁ row₂ hold₁ hold₂ hid
        · exact absurd hid (ne_of_lt (h.rowIds p₁ row₁ hold₁))
      · rcases hca p₂ row₂ hrow₂ with hold₂ | ⟨rfl, rfl⟩
        · exact absurd hid.symm (ne_of_lt (h.rowIds p₂ row₂ hold₂))
        · rfl
    · intro k token hto
      obtain ⟨hlt, hsc⟩ := h.tokens k token hto
      exact ⟨Nat.lt_succ_of_lt hlt, hsc⟩
    · intro rotation hro
      exact Nat.lt_succ_of_lt (h.rotationIds rotation hro)
    · intro rotation hro p' row' hrow hid
      rcases hca p' row' hrow with hold | ⟨-, rfl⟩
      · exact h.rotated rotation hro p' row' hold hid
      · exact absurd hid (ne_of_gt (h.rotationIds rotation hro))
    · intro p' row' hrow
      rcases hca p' row' hrow with hold | ⟨-, rfl⟩
      · obtain ⟨hbo, hac, hli⟩ := h.settled p' row' hold
        exact ⟨hbo, hac, hli⟩
      · exact ⟨nofun, nofun, nofun⟩
  · exact h

theorem Inv.erase (h : Inv t) (p : PeerKey) : Inv { t with peers := t.peers.erase p } := by
  have hca : ∀ p' row', (t.peers.erase p).get p' = some row' → t.peers.get p' = some row' := by
    intro _ _ hrow
    rw [get_erase] at hrow
    exact (ite_none_left_eq_some.mp hrow).2
  refine ⟨⟨?_, ?_, ?_, h.tokens, h.rotationIds, ?_⟩, ?_⟩
  · exact fun p' row' hrow => h.claimable p' row' (hca p' row' hrow)
  · exact fun p' row' hrow => h.rowIds p' row' (hca p' row' hrow)
  · exact fun p₁ p₂ row₁ row₂ hrow₁ hrow₂ =>
    h.rows p₁ p₂ row₁ row₂ (hca p₁ row₁ hrow₁) (hca p₂ row₂ hrow₂)
  · exact fun rotation hro p' row' hrow =>
    h.rotated rotation hro p' row' (hca p' row' hrow)
  · intro p' row' hrow
    obtain ⟨hbo, hac, hli⟩ := h.settled p' row' (hca p' row' hrow)
    exact ⟨hbo, hac, hli⟩

variable {row' : PeerRow} {k : Nat}

section

/-- The row after it was given a new token. -/
theorem peers_grant (h : ((t.issueToken p).setPeerStatus p .accepted).peers.get p' = some row') :
    (p' ≠ p ∧ t.peers.get p' = some row') ∨
      p' = p ∧ ∃ row, t.peers.get p = some row ∧ row'.id = row.id ∧ row'.status = .accepted ∧
        row'.tokenId = some t.nextId := by
  simp only [setPeerStatus, issueToken, get_modify] at h
  split at h
  case isTrue hp =>
    rw [map_map, map_eq_some_iff] at h
    obtain ⟨row, hget, rfl⟩ := h
    exact .inr ⟨hp, row, hp ▸ hget, rfl, rfl, rfl⟩
  case isFalse hp => exact .inl ⟨hp, h⟩

theorem tokens_grant (h : ((t.issueToken p).setPeerStatus p .accepted).tokens.get k = some token) :
    t.tokens.get k = some token ∨ k = t.nextId ∧ Named p token ∧ token.scopes = ["peer.*"] := by
  simp only [setPeerStatus, issueToken, get_set] at h
  split at h
  case isTrue hk =>
    obtain rfl := some.inj h
    exact .inr ⟨hk, ⟨rfl, rfl⟩, rfl⟩
  · exact .inl h

/-- The tokens that were there are still there. -/
theorem Sound.tokens_of_grant (h : Sound t) (hget : t.tokens.get k = some token) :
    ((t.issueToken p).setPeerStatus p .accepted).tokens.get k = some token := by
  have hk : k ≠ t.nextId := ne_of_lt (h.tokens k token hget).1
  simpa [setPeerStatus, issueToken, hk] using hget

end

/-- A row gets a new token, when every live token with its name is in its time of grace. -/
theorem Sound.grant (h : Sound t)
    (hot : ∀ p' row', p' ≠ p → t.peers.get p' = some row' → t.Settled p' row')
    (hgr : ∀ row k token, t.peers.get p = some row → t.tokens.get k = some token →
      Named p token → isExpired t.clock token = false → t.InGrace row k) :
    Inv ((t.issueToken p).setPeerStatus p .accepted) := by
  have hbe : ∀ p' row', ((t.issueToken p).setPeerStatus p .accepted).peers.get p' = some row' →
      ∃ row, t.peers.get p' = some row ∧ row'.id = row.id := by
    intro _ row' hrow
    rcases peers_grant hrow with ⟨-, hold⟩ | ⟨rfl, row, hget, hid, -⟩
    · exact ⟨row', hold, rfl⟩
    · exact ⟨row, hget, hid⟩
  refine ⟨⟨?_, ?_, ?_, ?_, ?_, ?_⟩, ?_⟩
  · intro p' row' hrow
    obtain ⟨row, hget, -⟩ := hbe p' row' hrow
    exact h.claimable p' row hget
  · intro p' row' hrow
    obtain ⟨row, hget, hid⟩ := hbe p' row' hrow
    exact hid ▸ Nat.lt_succ_of_lt (h.rowIds p' row hget)
  · intro p₁ p₂ row₁' row₂' hrow₁ hrow₂ hsa
    obtain ⟨row₁, hget₁, hid₁⟩ := hbe p₁ row₁' hrow₁
    obtain ⟨row₂, hget₂, hid₂⟩ := hbe p₂ row₂' hrow₂
    exact h.rows p₁ p₂ row₁ row₂ hget₁ hget₂ (hid₁.symm.trans (hsa.trans hid₂))
  · intro k token hto
    rcases tokens_grant hto with hold | ⟨rfl, -, hsc⟩
    · obtain ⟨hlt, hsc⟩ := h.tokens k token hold
      exact ⟨Nat.lt_succ_of_lt hlt, hsc⟩
    · exact ⟨Nat.lt_succ_self _, hsc⟩
  · intro rotation hro
    exact Nat.lt_succ_of_lt (h.rotationIds rotation hro)
  · intro rotation hro p' row' hrow hid
    obtain ⟨row, hget, hsa⟩ := hbe p' row' hrow
    obtain ⟨token, hto, hre⟩ := h.rotated rotation hro p' row hget (hsa.symm.trans hid)
    exact ⟨token, h.tokens_of_grant hto, hsa ▸ hre⟩
  · intro p' row' hrow
    rcases peers_grant hrow with ⟨hp, hold⟩ | ⟨rfl, row, hget, hid, hac, hbo⟩
    · obtain ⟨hbo, hac, hli⟩ := hot p' row' hp hold
      refine ⟨?_, hac, ?_⟩
      · intro k hk
        obtain ⟨token, hto, hre⟩ := hbo k hk
        exact ⟨token, h.tokens_of_grant hto, hre⟩
      · intro hst k token hto hna hnot
        rcases tokens_grant hto with hold | ⟨-, hna', -⟩
        · exact hli hst k token hold hna hnot
        · -- the new token has the name of another peer
          exact absurd (Prod.ext (hna.1.symm.trans hna'.1)
            (tokenName_injective (hna.2.symm.trans hna'.2))) hp
    · refine ⟨?_, ?_, ?_⟩
      · intro k hk
        obtain rfl := some.inj (hbo.symm.trans hk)
        refine ⟨_, get_set_self _ _ _, ⟨rfl, rfl⟩, ?_, rfl⟩
        rw [hid, hget]
        rfl
      · intro _
        simp [hbo]
      · intro _ k token hto hna hli
        rcases tokens_grant hto with hold | ⟨rfl, -⟩
        · obtain ⟨rotation, hro, hrow, hre⟩ := hgr row k token hget hold hna hli
          exact .inr ⟨rotation, hro, hrow.trans hid.symm, hre⟩
        · exact .inl hbo

theorem Inv.grant (h : Inv t) (hde : t.NoLiveToken p) :
    Inv ((t.issueToken p).setPeerStatus p .accepted) := by
  apply h.toSound.grant (fun p' row' _ hrow => h.settled p' row' hrow)
  intro _ k token _ hto hna hli
  rw [hde k token hto hna.1 hna.2] at hli
  cases hli

section

variable {old : Nat} {grace : Int}

variable (hbo : row.tokenId = some old) (hgr : 0 ≤ grace)
include hbo hgr

/-- The token of a row is let expire. -/
theorem graceExpire_eq : t.graceExpire row grace = { t with
      tokens := t.tokens.modify old fun token => { token with expiresAt := some (t.clock + grace) }
      rotations := t.rotations ++ [⟨row.id, old, t.clock, grace⟩] } := by
  simp [graceExpire, hbo, hgr]

theorem tokens_graceExpire : (t.graceExpire row grace).tokens.get k = if k = old then
      (t.tokens.get k).map fun token => { token with expiresAt := some (t.clock + grace) }
    else t.tokens.get k := by
  rw [graceExpire_eq hbo hgr]
  exact get_modify _ _ _ _

/-- While a rotation is under way, everything but the token of the row is as it was. -/
theorem Inv.sound_graceExpire (h : Inv t) (hrow : t.peers.get p = some row) : Sound (t.graceExpire row grace) := by
  obtain ⟨_, hold, hna, his, hnv⟩ := (h.settled p row hrow).bound old hbo
  have hto := fun k => tokens_graceExpire (t := t) (k := k) hbo hgr
  have hfi := graceExpire_eq (t := t) hbo hgr
  have hpe : (t.graceExpire row grace).peers = t.peers := by rw [hfi]
  have hnx : (t.graceExpire row grace).nextId = t.nextId := by rw [hfi]
  refine ⟨?_, ?_, ?_, ?_, ?_, ?_⟩
  · rw [hpe]
    exact h.claimable
  · rw [hpe, hnx]
    exact h.rowIds
  · rw [hpe]
    exact h.rows
  · intro k token hget
    rw [hto k] at hget
    rw [hnx]
    split at hget
    · obtain ⟨token', hget', rfl⟩ := map_eq_some_iff.mp hget
      exact h.tokens k token' hget'
    · exact h.tokens k token hget
  · intro rotation hro
    rw [hnx]
    rw [hfi] at hro
    rcases List.mem_append.mp hro with hold | hnew
    · exact h.rotationIds rotation hold
    · rw [List.mem_singleton.mp hnew]
      exact h.rowIds p row hrow
  · intro rotation hro p' row' hrow' hid
    rw [hpe] at hrow'
    rw [hfi] at hro
    rw [hto]
    rcases List.mem_append.mp hro with hmem | hnew
    · obtain ⟨token, hget, hre⟩ := h.rotated rotation hmem p' row' hrow' hid
      have hne : rotation.tokenId ≠ old := by
        rintro rfl
        obtain rfl := some.inj (hold.symm.trans hget)
        rw [hnv] at hre
        cases hre.2.2
      rw [if_neg hne]
      exact ⟨token, hget, hre⟩
    · rw [List.mem_singleton.mp hnew] at hid ⊢
      obtain rfl := h.rows p' p row' row hrow' hrow hid
      rw [if_pos rfl, hold]
      exact ⟨_, rfl, hna, his.trans hid.symm, rfl⟩

theorem inGrace_graceExpire (h : t.InGrace row' k) : (t.graceExpire row grace).InGrace row' k := by
  obtain ⟨rotation, hro, hre⟩ := h
  rw [graceExpire_eq hbo hgr]
  exact ⟨rotation, List.mem_append_left _ hro, hre⟩

/-- The rows of other peers stay settled. -/
theorem Inv.settled_graceExpire (h : Inv t) (hrow : t.peers.get p = some row)
    (hp : p' ≠ p) (hrow' : t.peers.get p' = some row') : (t.graceExpire row grace).Settled p' row' := by
  obtain ⟨_, hold, hna, -⟩ := (h.settled p row hrow).bound old hbo
  obtain ⟨hbo', hac, hli⟩ := h.settled p' row' hrow'
  have hto := fun k => tokens_graceExpire (t := t) (k := k) hbo hgr
  refine ⟨?_, hac, ?_⟩
  · intro k hk
    obtain ⟨token, hget, hre⟩ := hbo' k hk
    have hne : k ≠ old := by
      rintro rfl
      exact hp (h.key_eq_of_bound hrow' hk hold hna)
    rw [hto, if_neg hne]
    exact ⟨token, hget, hre⟩
  · intro hst k token hget hna' hnot
    rw [hto] at hget
    split at hget
    case isTrue hk =>
      subst hk
      rw [hold] at hget
      obtain rfl := some.inj hget
      exact absurd (Prod.ext (hna'.1.symm.trans hna.1)
        (tokenName_injective (hna'.2.symm.trans hna.2))) hp
    · have hcl : (t.graceExpire row grace).clock = t.clock := by
        rw [graceExpire_eq hbo hgr]
      rw [hcl] at hnot
      rcases hli hst k token hget hna' hnot with hse | hin
      · exact .inl hse
      · exact .inr (inGrace_graceExpire hbo hgr hin)

/-- Every live token with the name of the row is in its time of grace. -/
theorem Inv.inGrace_of_graceExpire (h : Inv t) (hrow : t.peers.get p = some row)
    (hac : row.status = .accepted)
    (hget : (t.graceExpire row grace).tokens.get k = some token) (hna : Named p token)
    (hli : isExpired t.clock token = false) : (t.graceExpire row grace).InGrace row k := by
  rw [tokens_graceExpire hbo hgr] at hget
  split at hget
  case isTrue hk =>
    obtain ⟨_, -, rfl⟩ := map_eq_some_iff.mp hget
    rw [graceExpire_eq hbo hgr]
    exact ⟨⟨row.id, old, t.clock, grace⟩, List.mem_append_right _ (List.mem_singleton_self _), rfl,
      hk.symm, by simpa [isExpired] using hli⟩
  case isFalse hk =>
    rcases (h.settled p row hrow).live hac k token hget hna hli with hse | hin
    · exact absurd (some.inj (hse.symm.trans hbo)) hk
    · exact inGrace_graceExpire hbo hgr hin

omit hbo hgr

theorem Inv.rotatePeerToken (h : Inv t) (hrow : t.peers.get p = some row) (hgr : 0 ≤ grace) :
    Inv (t.rotatePeerToken p row grace) := by
  unfold Tables.rotatePeerToken
  split
  · exact h
  rename_i hst
  have hac : row.status = .accepted := not_not.mp hst
  obtain ⟨_, hbo⟩ := ne_none_iff_exists'.mp ((h.settled p row hrow).accepted hac)
  have hfi := graceExpire_eq (t := t) hbo hgr
  have hpe : (t.graceExpire row grace).peers = t.peers := by rw [hfi]
  have hcl : (t.graceExpire row grace).clock = t.clock := by rw [hfi]
  have hgd := (h.sound_graceExpire hbo hgr hrow).grant (fun p' row' hp hrow' =>
      h.settled_graceExpire hbo hgr hrow hp (hpe ▸ hrow'))
    (fun row' k token hrow' hget hna hli => by
      rw [hpe, hrow] at hrow'
      obtain rfl := some.inj hrow'
      exact h.inGrace_of_graceExpire hbo hgr hrow hac hget hna (hcl ▸ hli))
  -- the row is accepted already
  have hsa : ((t.graceExpire row grace).issueToken p).setPeerStatus p .accepted =
      (t.graceExpire row grace).issueToken p := by
    unfold setPeerStatus
    rw [modify_eq_self]
    intro _ hrow'
    simp only [issueToken, hpe, get_modify_self, hrow, map_some, some.injEq] at hrow'
    rw [← hrow']
    simp [hac]
  rwa [← hsa]

end

theorem Inv.step (h : Inv t) {input : Input} (hok : t.Careful input) : Inv (t.step input) := by
  cases input with
  | invite =>
    obtain ⟨hcl, hde⟩ := hok
    dsimp only [Tables.step, postInvite]
    split
    · exact h
    rename_i hem
    have hup := h.upsertPeer hem hcl
    split
    case isFalse => exact hup
    rename_i htr
    apply hup.grant
    have hde := hde htr
    unfold Tables.upsertPeer
    split
    all_goals exact hde
  | accept rowId =>
    dsimp only [Tables.step, postInviteAccept]
    split
    · exact h
    case h_2 p row hfo => exact h.grant (hok p row hfo)
  | reject rowId =>
    dsimp only [Tables.step, postInviteReject]
    split
    · exact h
    case h_2 p row _ => exact h.erase p
  | remove p => exact h.erase p
  | rotate p grace =>
    dsimp only [Tables.step, postRotatePeerToken]
    split
    · exact h
    case h_2 _ hrow => exact h.rotatePeerToken hrow hok
  | selfRotate =>
    dsimp only [Tables.step, postSelfRotateToken]
    split
    · exact h
    case h_2 _ _ hfo => exact h.rotatePeerToken (requirePeerAuth_ok hfo).1 hok
  | advance microseconds => exact h.advance microseconds

theorem inv_empty : Inv {} := by
  refine ⟨⟨?_, ?_, ?_, ?_, ?_, ?_⟩, ?_⟩
  all_goals
    intros
    contradiction

/-- A token speaks for no other row than the one it was issued to. -/
theorem Inv.issuedTo_of_entitled (h : Inv t) (hen : t.Entitled p secret) :
    ∃ row token, t.peers.get p = some row ∧ t.tokens.get secret = some token ∧
      token.issuedTo = row.id := by
  obtain ⟨row, hrow, -, hbo | ⟨rotation, hro, hid, rfl, -⟩⟩ := hen
  · obtain ⟨token, hget, -, his, -⟩ := (h.settled p row hrow).bound secret hbo
    exact ⟨row, token, hrow, hget, his⟩
  · obtain ⟨token, hget, -, his, -⟩ := h.rotated rotation hro p row hrow hid.symm
    exact ⟨row, token, hrow, hget, his⟩

/-- In every run of invitations, acceptances, rejections, removals and rotations that are careful,
a token is taken for a peer exactly if the accepted row of the peer is bound to it, or it was
rotated out of that row less than the time of grace ago; and the row is the one that it was issued
to. -/
theorem authenticates_iff_entitled {inputs start : List Input}
    (hrun : Guarded step Careful {} inputs) (hstart : start <+: inputs) (p : PeerKey)
    (secret : Nat) :
    let t := runFrom step {} start
    (t.Authenticates p secret ↔ t.Entitled p secret) ∧
      (t.Authenticates p secret → ∃ row token, t.peers.get p = some row ∧
        t.tokens.get secret = some token ∧ token.issuedTo = row.id) := by
  have hst : ∀ t i, Inv t → Careful t i → Inv (step t i) := fun t i h hok => h.step hok
  have hinv := (hrun.of_prefix hstart).invariant hst inv_empty
  exact ⟨hinv.authenticates_iff, fun h => hinv.issuedTo_of_entitled (hinv.authenticates_iff.mp h)⟩

/-! ## Runs of one peer -/

/-- A peer that was accepted and whose token was rotated: both tokens are taken for it. -/
theorem rotated_token_authenticates :
    let t := runFrom step {} [.invite ("w", "a") false, .accept 0, .rotate ("w", "a") 300, .advance 100]
    t.Authenticates ("w", "a") 1 ∧ t.Authenticates ("w", "a") 2 := by
  have hrun : Guarded step Careful {}
      [.invite ("w", "a") false, .accept 0, .rotate ("w", "a") 300, .advance 100] := by
    refine ⟨⟨⟨"a", by decide⟩, nofun⟩, ?_, Int.le_of_lt (by decide), trivial, trivial⟩
    rintro p _ _ k _ ⟨⟩
  have hiff := fun secret => (authenticates_iff_entitled hrun List.prefix_rfl ("w", "a") secret).1
  exact ⟨(hiff 1).mpr (by decide), (hiff 2).mpr (by decide)⟩

/-- Three runs after which a token still speaks for a peer that it should not speak for: the peer
was removed and has come back; it was accepted again; its token was rotated with a negative time of
grace. -/
theorem old_tokens_authenticate :
    let returned := runFrom step {} [.invite ("w", "a") false, .accept 0, .remove ("w", "a"),
      .invite ("w", "a") false, .accept 2]
    let superseded := runFrom step {} [.invite ("w", "a") false, .accept 0, .accept 0]
    let overdue := runFrom step {} [.invite ("w", "a") false, .accept 0, .rotate ("w", "a") (-1)]
    (returned.Authenticates ("w", "a") 1 ∧ ¬ returned.Entitled ("w", "a") 1) ∧
      (superseded.Authenticates ("w", "a") 1 ∧ ¬ superseded.Entitled ("w", "a") 1) ∧
      overdue.Authenticates ("w", "a") 1 ∧ ¬ overdue.Entitled ("w", "a") 1 := by
  refine ⟨⟨⟨"a", ⟨2, .accepted, some 3⟩, by decide⟩, by decide⟩, ⟨⟨"a", ⟨0, .accepted, some 2⟩, ?_⟩, ?_⟩,
    ⟨"a", ⟨0, .accepted, some 2⟩, ?_⟩, ?_⟩
  all_goals decide

end Tables

end Orchestratord.Peer.Registry
