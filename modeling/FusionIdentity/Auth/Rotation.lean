import FusionIdentity.Auth.Moves
import Mathlib.Logic.Relation

/-!
# Rotation happens once

The invariant of the refresh token protocol, over all interleavings of all requests. Its core is a
conservation law: each family has at most one *claimant*, counting its active token and the requests
that hold the right to store one in it. A rotation turns the active token into a right, storing a
token turns the right back into an active token, and a revocation only takes away.

The invariant is split by what it talks about. `TableOk` is about rows, `ThreadOk` about rows and
one request, `Apart` about two requests. A move changes one request, so what the others know has to
survive the change of the rows; `Sees` collects what that takes.
-/

namespace FusionIdentity

open Foundation

/-! ## The life of a row -/

inductive StatusStep : RefreshStatus → RefreshStatus → Prop
  | rotate : StatusStep .active .rotated
  | revokeActive : StatusStep .active .revoked
  | revokeRotated : StatusStep .rotated .revoked

/-- The second status follows the first in zero or more steps. -/
abbrev StatusReach : RefreshStatus → RefreshStatus → Prop := Relation.ReflTransGen StatusStep

theorem StatusReach.active {s : RefreshStatus} (h : StatusReach s .active) : s = .active := by
  rcases h.cases_tail with h | ⟨s', -, h⟩
  · exact h.symm
  · cases h

theorem StatusReach.revoked {s : RefreshStatus} (h : StatusReach .revoked s) : s = .revoked := by
  rcases h.cases_head with h | ⟨s', h, -⟩
  · exact h.symm
  · cases h

/-- How a row may change: its status moves on, and whose it is stays. -/
structure RowGrows (r r' : RefreshToken) : Prop where
  familyId : r'.familyId = r.familyId
  tenantId : r'.tenantId = r.tenantId
  userId : r'.userId = r.userId
  status : StatusReach r.status r'.status

theorem RowGrows.refl (r : RefreshToken) : RowGrows r r := ⟨rfl, rfl, rfl, .refl⟩

theorem RowGrows.trans {r₁ r₂ r₃ : RefreshToken} (h : RowGrows r₁ r₂) (h' : RowGrows r₂ r₃) :
    RowGrows r₁ r₃ :=
  ⟨h'.familyId.trans h.familyId, h'.tenantId.trans h.tenantId, h'.userId.trans h.userId,
    h.status.trans h'.status⟩

variable {r s : RefreshToken} {t' t₂ : Phase} {ph : ℕ → Option Phase} {i : ℕ} {u : Unstored}
  {th : AuthThread} {input : Input} {j : String}

theorem rowGrows_rotatedRow (new : String) (h : r.status = .active) :
    RowGrows r (rotatedRow new r) :=
  ⟨rfl, rfl, rfl, .single (h ▸ .rotate)⟩

theorem rowGrows_revokedRow (p : RefreshToken → Bool) (r : RefreshToken) :
    RowGrows r (revokedRow p r) := by
  rw [revokedRow]
  split_ifs with h
  · refine ⟨rfl, rfl, rfl, .single ?_⟩
    rw [Bool.and_eq_true, decide_eq_true_eq] at h
    cases hs : r.status with
    | active => exact .revokeActive
    | rotated => exact .revokeRotated
    | revoked => exact absurd hs h.2
  · exact .refl r

theorem revokedRow_replacedBy (p : RefreshToken → Bool) (r : RefreshToken) :
    (revokedRow p r).replacedBy = r.replacedBy := by
  rw [revokedRow]
  split_ifs <;> rfl

theorem revokedRow_jti (p : RefreshToken → Bool) (r : RefreshToken) :
    (revokedRow p r).jti = r.jti := by
  rw [revokedRow]
  split_ifs <;> rfl

theorem revokedRow_status {p : RefreshToken → Bool} (h : p r = true) :
    (revokedRow p r).status = .revoked := by
  rw [revokedRow]
  split_ifs with h'
  · rfl
  · simpa [h] using h'

/-! ## The invariant -/

structure TableOk (S : TokenState) : Prop where
  minted_unique : ∀ c ∈ S.minted, ∀ d ∈ S.minted, c.jti = d.jti → c = d
  jti : ∀ {j r}, S.rows.get? j = some r → r.jti = j
  /-- Every row is the row of a signed token, for the owner it was signed for. -/
  minted : ∀ {j r}, S.rows.get? j = some r →
    ∃ c ∈ S.minted, c.jti = j ∧ c.tid = r.tenantId ∧ c.sub = r.userId
  family : ∀ {j r}, S.rows.get? j = some r → r.familyId ∈ S.families
  /-- A family has at most one active token. -/
  active_unique : ∀ {j k r s}, S.rows.get? j = some r → S.rows.get? k = some s →
    r.familyId = s.familyId → r.status = .active → s.status = .active → j = k
  owner : ∀ {j k r s}, S.rows.get? j = some r → S.rows.get? k = some s →
    r.familyId = s.familyId → r.tenantId = s.tenantId ∧ r.userId = s.userId
  /-- A successor has been signed, and once it is stored it is in the family. -/
  edge_minted : ∀ {j r n}, S.rows.get? j = some r → r.replacedBy = some n →
    ∃ c ∈ S.minted, c.jti = n
  edge_family : ∀ {j n r s}, S.rows.get? j = some r → r.replacedBy = some n →
    S.rows.get? n = some s → s.familyId = r.familyId

structure ThreadOk (S : TokenState) (t : Phase) : Prop where
  presented : ∀ c ∈ t.presented, c ∈ S.minted
  row : ∀ {r}, t.row = some r → ∃ s, S.rows.get? r.jti = some s ∧ s.familyId = r.familyId ∧
    s.tenantId = r.tenantId ∧ s.userId = r.userId
  fresh_minted : ∀ {u}, t.fresh = some u →
    ∃ c ∈ S.minted, c.jti = u.jti ∧ c.tid = u.tid ∧ c.sub = u.sub
  fresh_unstored : ∀ {u}, t.fresh = some u → S.rows.get? u.jti = none
  /-- Who waits for the token that was signed waits in the family it will be stored in. -/
  fresh_edge : ∀ {u j r}, t.fresh = some u → S.rows.get? j = some r →
    r.replacedBy = some u.jti → ∃ R, t.right = some R ∧ R.family = r.familyId
  right_family : ∀ {R}, t.right = some R → R.family ∈ S.families
  /-- The right to a family excludes an active token of it. -/
  right_exclusive : ∀ {R j r}, t.right = some R → S.rows.get? j = some r →
    r.familyId = R.family → r.status ≠ .active
  right_root : ∀ {R j r}, t.right = some R → R.parent = none → S.rows.get? j = some r →
    r.familyId ≠ R.family
  right_parent : ∀ {R j}, t.right = some R → R.parent = some j →
    ∃ r u, S.rows.get? j = some r ∧ r.familyId = R.family ∧ t.fresh = some u ∧
      r.tenantId = u.tid ∧ r.userId = u.sub
  exchanged : ∀ {j}, t.exchanged = some j → ∃ r, S.rows.get? j = some r ∧ r.status ≠ .active

structure Apart (t t' : Phase) : Prop where
  fresh : ∀ {u u'}, t.fresh = some u → t'.fresh = some u' → u.jti ≠ u'.jti
  right : ∀ {R R'}, t.right = some R → t'.right = some R' → R.family ≠ R'.family
  exchanged : ∀ {j}, t.exchanged = some j → t'.exchanged ≠ some j

theorem Apart.symm {t : Phase} (h : Apart t t') : Apart t' t :=
  ⟨fun hu hu' ↦ (h.fresh hu' hu).symm, fun hR hR' ↦ (h.right hR' hR).symm,
    fun hj hj' ↦ h.exchanged hj' hj⟩

/-- The invariant, for a token state and the phases of the requests. -/
structure Sound (S : TokenState) (ph : ℕ → Option Phase) : Prop where
  table : TableOk S
  thread : ∀ {i t}, ph i = some t → ThreadOk S t
  apart : ∀ {i k t t'}, i ≠ k → ph i = some t → ph k = some t' → Apart t t'

/-- A move of one request keeps the invariant if it keeps the rows in order, leaves the request in
order, and every other request survives it. -/
theorem Sound.update {S S' : TokenState}
    (h : Sound S ph) (htable : TableOk S') (hthread : ThreadOk S' t')
    (hothers : ∀ k t₂, k ≠ i → ph k = some t₂ → ThreadOk S' t₂ ∧ Apart t' t₂) :
    Sound S' (Function.update ph i (some t')) := by
  have hget {k : ℕ} {t₂ : Phase} (hk : Function.update ph i (some t') k = some t₂) :
      k = i ∧ t₂ = t' ∨ k ≠ i ∧ ph k = some t₂ := by
    rw [Function.update_apply] at hk
    split_ifs at hk with hki
    · exact .inl ⟨hki, (Option.some.inj hk).symm⟩
    · exact .inr ⟨hki, hk⟩
  refine ⟨htable, fun {k t₂} hk ↦ ?_, fun {k l t₁ t₂} hkl hk hl ↦ ?_⟩
  · rcases hget hk with ⟨-, rfl⟩ | ⟨hki, hk'⟩
    · exact hthread
    · exact (hothers k t₂ hki hk').1
  · rcases hget hk with ⟨rfl, rfl⟩ | ⟨hki, hk'⟩
    · rcases hget hl with ⟨rfl, -⟩ | ⟨hli, hl'⟩
      · exact absurd rfl hkl
      · exact (hothers l t₂ hli hl').2
    · rcases hget hl with ⟨rfl, rfl⟩ | ⟨-, hl'⟩
      · exact (hothers k t₁ hki hk').2.symm
      · exact h.apart hkl hk' hl'

/-! ## What a request sees of a move of another -/

/-- The token state moves from `S` to `S'` without disturbing a request in phase `t`: rows only
grow, and a new row is neither the one the request has signed nor in the family it has a right to.
-/
structure Sees (S S' : TokenState) (t : Phase) : Prop where
  minted : S.minted ⊆ S'.minted
  families : S.families ⊆ S'.families
  grows : ∀ {j r}, S.rows.get? j = some r → ∃ r', S'.rows.get? j = some r' ∧ RowGrows r r'
  origin : ∀ {j r'}, S'.rows.get? j = some r' →
    (∃ r, S.rows.get? j = some r ∧ RowGrows r r' ∧
      ∀ u, t.fresh = some u → r'.replacedBy = some u.jti → r.replacedBy = some u.jti) ∨
    ((∀ u, t.fresh = some u → u.jti ≠ j) ∧ (∀ R, t.right = some R → r'.familyId ≠ R.family) ∧
      r'.replacedBy = none)

variable {S S' : TokenState} {t t' : Phase}

theorem Sees.of_rows (hrows : S'.rows = S.rows) (hminted : S.minted ⊆ S'.minted)
    (hfamilies : S.families ⊆ S'.families) : Sees S S' t where
  minted := hminted
  families := hfamilies
  grows {_ r} hr := ⟨r, hrows ▸ hr, .refl r⟩
  origin {_ r'} hr' := .inl ⟨r', hrows ▸ hr', .refl r', fun _ _ h ↦ h⟩

theorem ThreadOk.mono (h : ThreadOk S t) (hs : Sees S S' t) : ThreadOk S' t where
  presented c hc := hs.minted (h.presented c hc)
  row {r} hr := by
    obtain ⟨s, hsome, hfam, htid, hsub⟩ := h.row hr
    obtain ⟨s', hsome', hg⟩ := hs.grows hsome
    exact ⟨s', hsome', hg.familyId.trans hfam, hg.tenantId.trans htid, hg.userId.trans hsub⟩
  fresh_minted {u} hu := by
    obtain ⟨c, hc, hspec⟩ := h.fresh_minted hu
    exact ⟨c, hs.minted hc, hspec⟩
  fresh_unstored {u} hu := by
    cases hget : S'.rows.get? u.jti with
    | none => rfl
    | some r' =>
      rcases hs.origin hget with ⟨r, hr, -⟩ | ⟨hne, -⟩
      · rw [h.fresh_unstored hu] at hr
        cases hr
      · exact absurd rfl (hne u hu)
  fresh_edge {u j r'} hu hr' hedge := by
    rcases hs.origin hr' with ⟨r, hr, hg, hback⟩ | ⟨-, -, hnone⟩
    · obtain ⟨R, hR, hfam⟩ := h.fresh_edge hu hr (hback u hu hedge)
      exact ⟨R, hR, hfam.trans hg.familyId.symm⟩
    · rw [hnone] at hedge
      cases hedge
  right_family hR := hs.families (h.right_family hR)
  right_exclusive {R j r'} hR hr' hfam hactive := by
    rcases hs.origin hr' with ⟨r, hr, hg, -⟩ | ⟨-, hne, -⟩
    · have hwas : r.status = .active := (hactive ▸ hg.status).active
      exact h.right_exclusive hR hr (hg.familyId ▸ hfam) hwas
    · exact hne R hR hfam
  right_root {R j r'} hR hroot hr' hfam := by
    rcases hs.origin hr' with ⟨r, hr, hg, -⟩ | ⟨-, hne, -⟩
    · exact h.right_root hR hroot hr (hg.familyId ▸ hfam)
    · exact hne R hR hfam
  right_parent {R j} hR hj := by
    obtain ⟨r, u, hr, hfam, hu, htid, hsub⟩ := h.right_parent hR hj
    obtain ⟨r', hr', hg⟩ := hs.grows hr
    exact ⟨r', u, hr', hg.familyId.trans hfam, hu, hg.tenantId.trans htid, hg.userId.trans hsub⟩
  exchanged {j} hj := by
    obtain ⟨r, hr, hne⟩ := h.exchanged hj
    obtain ⟨r', hr', hg⟩ := hs.grows hr
    exact ⟨r', hr', fun hactive ↦ hne (hactive ▸ hg.status).active⟩

/-- Rows stay in order when they grow in place and the new successors have been signed and are not
stored. -/
theorem TableOk.grow (h : TableOk S) (hminted : S'.minted = S.minted)
    (hfamilies : S'.families = S.families)
    (horigin : ∀ {j r'}, S'.rows.get? j = some r' → ∃ r, S.rows.get? j = some r ∧ RowGrows r r' ∧
      r'.jti = r.jti ∧ ∀ n, r'.replacedBy = some n → r.replacedBy = some n ∨
        (S.rows.get? n = none ∧ ∃ c ∈ S.minted, c.jti = n)) : TableOk S' where
  minted_unique := by
    rw [hminted]
    exact h.minted_unique
  jti {j r'} hr' := by
    obtain ⟨r, hr, -, hjti, -⟩ := horigin hr'
    exact hjti.trans (h.jti hr)
  minted {j r'} hr' := by
    obtain ⟨r, hr, hg, -⟩ := horigin hr'
    obtain ⟨c, hc, hj, htid, hsub⟩ := h.minted hr
    exact ⟨c, hminted ▸ hc, hj, htid.trans hg.tenantId.symm, hsub.trans hg.userId.symm⟩
  family {j r'} hr' := by
    obtain ⟨r, hr, hg, -⟩ := horigin hr'
    rw [hfamilies, hg.familyId]
    exact h.family hr
  active_unique {j k r' s'} hr' hs' hfam hract hsact := by
    obtain ⟨r, hr, hgr, -⟩ := horigin hr'
    obtain ⟨s, hs, hgs, -⟩ := horigin hs'
    have hfam' : r.familyId = s.familyId := by rw [← hgr.familyId, hfam, hgs.familyId]
    exact h.active_unique hr hs hfam' (hract ▸ hgr.status).active (hsact ▸ hgs.status).active
  owner {j k r' s'} hr' hs' hfam := by
    obtain ⟨r, hr, hgr, -⟩ := horigin hr'
    obtain ⟨s, hs, hgs, -⟩ := horigin hs'
    have hfam' : r.familyId = s.familyId := by rw [← hgr.familyId, hfam, hgs.familyId]
    rw [hgr.tenantId, hgs.tenantId, hgr.userId, hgs.userId]
    exact h.owner hr hs hfam'
  edge_minted {j r' n} hr' hn := by
    obtain ⟨r, hr, -, -, hback⟩ := horigin hr'
    rw [hminted]
    rcases hback n hn with hn | ⟨-, hn⟩
    · exact h.edge_minted hr hn
    · exact hn
  edge_family {j n r' s'} hr' hn hs' := by
    obtain ⟨r, hr, hgr, -, hback⟩ := horigin hr'
    obtain ⟨s, hs, hgs, -⟩ := horigin hs'
    rcases hback n hn with hn | ⟨hnone, -⟩
    · rw [hgs.familyId, hgr.familyId]
      exact h.edge_family hr hn hs
    · rw [hnone] at hs
      cases hs

/-! ## The moves keep the invariant -/

theorem TableOk.sign (h : TableOk S) {c : Claims} (hc : ∀ d ∈ S.minted, d.jti ≠ c.jti) :
    TableOk { S with minted := c :: S.minted } where
  __ := h
  minted_unique d hd e he hjti := by
    rcases List.mem_cons.mp hd with rfl | hd'
    · rcases List.mem_cons.mp he with rfl | he'
      · rfl
      · exact absurd hjti.symm (hc e he')
    · rcases List.mem_cons.mp he with rfl | he'
      · exact absurd hjti (hc d hd')
      · exact h.minted_unique d hd' e he' hjti
  minted hr := by
    obtain ⟨d, hd, hspec⟩ := h.minted hr
    exact ⟨d, List.mem_cons_of_mem c hd, hspec⟩
  edge_minted hr hn := by
    obtain ⟨d, hd, hspec⟩ := h.edge_minted hr hn
    exact ⟨d, List.mem_cons_of_mem c hd, hspec⟩

theorem TableOk.draw (h : TableOk S) (familyId : String) :
    TableOk { S with families := familyId :: S.families } :=
  { h with family := fun hr ↦ List.mem_cons_of_mem familyId (h.family hr) }

/-- Storing a token: the right to the family guarantees that it is the only active one. -/
theorem TableOk.insert (h : TableOk S) (ht : ThreadOk S t) {R : FamilyRight}
    (hu : t.fresh = some u) (hR : t.right = some R) (expiresAt : Time) :
    TableOk { S with rows := S.rows.set u.jti (newRow u R.family expiresAt) } := by
  have hget {j : String} {r : RefreshToken}
      (hr : (S.rows.set u.jti (newRow u R.family expiresAt)).get? j = some r) :
      j = u.jti ∧ r = newRow u R.family expiresAt ∨ S.rows.get? j = some r := by
    rw [Dict.get?_set] at hr
    split_ifs at hr with hj
    · exact .inl ⟨hj, (Option.some.inj hr).symm⟩
    · exact .inr hr
  -- the rows that are already in the family belong to the owner of the new one
  have howner {j : String} {r : RefreshToken} (hr : S.rows.get? j = some r)
      (hfam : r.familyId = R.family) : r.tenantId = u.tid ∧ r.userId = u.sub := by
    cases hparent : R.parent with
    | none => exact absurd hfam (ht.right_root hR hparent hr)
    | some k =>
      obtain ⟨s, u', hs, hsfam, hu', htid, hsub⟩ := ht.right_parent hR hparent
      obtain rfl : u = u' := Option.some.inj (hu.symm.trans hu')
      obtain ⟨hrs, hrs'⟩ := h.owner hr hs (hfam.trans hsfam.symm)
      exact ⟨hrs.trans htid, hrs'.trans hsub⟩
  constructor
  · exact h.minted_unique
  · intro j r hr
    rcases hget hr with ⟨rfl, rfl⟩ | hr
    · rfl
    · exact h.jti hr
  · intro j r hr
    rcases hget hr with ⟨rfl, rfl⟩ | hr
    · exact ht.fresh_minted hu
    · exact h.minted hr
  · intro j r hr
    rcases hget hr with ⟨rfl, rfl⟩ | hr
    · exact ht.right_family hR
    · exact h.family hr
  · intro j k r s hr hs hfam hract hsact
    rcases hget hr with ⟨rfl, rfl⟩ | hr
    · rcases hget hs with ⟨rfl, -⟩ | hs
      · rfl
      · exact absurd hsact (ht.right_exclusive hR hs hfam.symm)
    · rcases hget hs with ⟨-, rfl⟩ | hs
      · exact absurd hract (ht.right_exclusive hR hr hfam)
      · exact h.active_unique hr hs hfam hract hsact
  · intro j k r s hr hs hfam
    rcases hget hr with ⟨-, rfl⟩ | hr
    · rcases hget hs with ⟨-, rfl⟩ | hs
      · exact ⟨rfl, rfl⟩
      · obtain ⟨htid, hsub⟩ := howner hs hfam.symm
        exact ⟨htid.symm, hsub.symm⟩
    · rcases hget hs with ⟨-, rfl⟩ | hs
      · exact howner hr hfam
      · exact h.owner hr hs hfam
  · intro j r n hr hn
    rcases hget hr with ⟨-, rfl⟩ | hr
    · cases hn
    · exact h.edge_minted hr hn
  · intro j n r s hr hn hs
    rcases hget hr with ⟨-, rfl⟩ | hr
    · cases hn
    · rcases hget hs with ⟨rfl, rfl⟩ | hs
      · obtain ⟨R', hR', hfam⟩ := ht.fresh_edge hu hr hn
        obtain rfl : R = R' := Option.some.inj (hR.symm.trans hR')
        exact hfam
      · exact h.edge_family hr hn hs

theorem Sees.insert (ht : ThreadOk S t) (hu : t.fresh = some u) (familyId : String)
    (expiresAt : Time) (hfresh : ∀ u', t₂.fresh = some u' → u'.jti ≠ u.jti)
    (hright : ∀ R', t₂.right = some R' → familyId ≠ R'.family) :
    Sees S { S with rows := S.rows.set u.jti (newRow u familyId expiresAt) } t₂ where
  minted := List.Subset.refl _
  families := List.Subset.refl _
  grows {j r} hr := by
    have hj : j ≠ u.jti := by
      rintro rfl
      rw [ht.fresh_unstored hu] at hr
      cases hr
    exact ⟨r, by rw [Dict.get?_set_of_ne _ hj, hr], .refl r⟩
  origin {j r'} hr' := by
    rw [Dict.get?_set] at hr'
    split_ifs at hr' with hj
    · obtain rfl := Option.some.inj hr'
      exact .inr ⟨fun u' hu' ↦ hj ▸ hfresh u' hu', hright, rfl⟩
    · exact .inl ⟨r', hr', .refl r', fun _ _ h ↦ h⟩

/-- The swap, as the other requests see it: only the successor gets to know. -/
theorem Sees.rotate (hs : S.rows.get? r.jti = some s) (hactive : s.status = .active)
    (hfresh : ∀ u', t₂.fresh = some u' → u'.jti ≠ u.jti) :
    Sees S { S with rows := S.rows.modify r.jti (rotatedRow u.jti) } t₂ where
  minted := List.Subset.refl _
  families := List.Subset.refl _
  grows {j r₀} hr₀ := by
    rw [Dict.get?_modify, hr₀]
    split_ifs with hj
    · obtain rfl : s = r₀ := Option.some.inj (hs.symm.trans (hj ▸ hr₀))
      exact ⟨_, rfl, rowGrows_rotatedRow u.jti hactive⟩
    · exact ⟨r₀, rfl, .refl r₀⟩
  origin {j r'} hr' := by
    rw [Dict.get?_modify] at hr'
    split_ifs at hr' with hj
    · rw [hj, hs, Option.map_some, Option.some.injEq] at hr'
      subst hr'
      refine .inl ⟨s, hj ▸ hs, rowGrows_rotatedRow u.jti hactive, fun u' hu' hedge ↦ ?_⟩
      exact absurd (Option.some.inj hedge).symm (hfresh u' hu')
    · exact .inl ⟨r', hr', .refl r', fun _ _ h ↦ h⟩

theorem TableOk.rotate (h : TableOk S) (ht : ThreadOk S t)
    (hu : t.fresh = some u) (hs : S.rows.get? r.jti = some s) (hactive : s.status = .active) :
    TableOk { S with rows := S.rows.modify r.jti (rotatedRow u.jti) } := by
  refine h.grow rfl rfl fun {j r'} hr' ↦ ?_
  rw [Dict.get?_modify] at hr'
  split_ifs at hr' with hj
  · rw [hj, hs, Option.map_some, Option.some.injEq] at hr'
    subst hr'
    refine ⟨s, hj ▸ hs, rowGrows_rotatedRow u.jti hactive, rfl, fun n hn ↦ .inr ?_⟩
    obtain rfl : u.jti = n := Option.some.inj hn
    obtain ⟨c, hc, hjti, -⟩ := ht.fresh_minted hu
    exact ⟨ht.fresh_unstored hu, c, hc, hjti⟩
  · exact ⟨r', hr', .refl r', rfl, fun _ hn ↦ .inl hn⟩

/-- The swap, as the request sees it: it now holds the right to the family, whose active token it
has just rotated away. -/
theorem ThreadOk.rotate (ht : ThreadOk S t) (h : TableOk S)
    (hright : t.right = none) (hrow : t.row = some r) (hu : t.fresh = some u)
    (htid : r.tenantId = u.tid) (hsub : r.userId = u.sub) (hs : S.rows.get? r.jti = some s)
    (hactive : s.status = .active) :
    ThreadOk { S with rows := S.rows.modify r.jti (rotatedRow u.jti) }
      { t with right := some ⟨r.familyId, some r.jti⟩, exchanged := some r.jti } := by
  obtain ⟨s', hs', hfam, hstid, hssub⟩ := ht.row hrow
  obtain rfl : s = s' := Option.some.inj (hs.symm.trans hs')
  have hget {j : String} {r' : RefreshToken}
      (hr' : (S.rows.modify r.jti (rotatedRow u.jti)).get? j = some r') :
      r' = rotatedRow u.jti s ∨ j ≠ r.jti ∧ S.rows.get? j = some r' := by
    rw [Dict.get?_modify] at hr'
    split_ifs at hr' with hj
    · rw [hj, hs, Option.map_some, Option.some.injEq] at hr'
      exact .inl hr'.symm
    · exact .inr ⟨hj, hr'⟩
  have hself : (S.rows.modify r.jti (rotatedRow u.jti)).get? r.jti
      = some (rotatedRow u.jti s) := by
    rw [Dict.get?_modify, if_pos rfl, hs, Option.map_some]
  constructor
  · exact ht.presented
  · intro r₀ hr₀
    obtain rfl : r = r₀ := Option.some.inj (hrow.symm.trans hr₀)
    exact ⟨_, hself, hfam, hstid, hssub⟩
  · exact ht.fresh_minted
  · intro u' hu'
    rw [Dict.get?_modify, ht.fresh_unstored hu']
    split_ifs <;> rfl
  · intro u' j r' hu' hr' hedge
    rcases hget hr' with rfl | ⟨-, hr'⟩
    · exact ⟨_, rfl, hfam.symm⟩
    · obtain ⟨R, hR, -⟩ := ht.fresh_edge hu' hr' hedge
      rw [hright] at hR
      cases hR
  · rintro R ⟨rfl⟩
    exact hfam ▸ h.family hs
  · rintro R j r' ⟨rfl⟩ hr' hrfam hract
    rcases hget hr' with rfl | ⟨hj, hr'⟩
    · cases hract
    · exact hj (h.active_unique hr' hs (hrfam.trans hfam.symm) hract hactive)
  · rintro R j r' ⟨rfl⟩ hroot
    cases hroot
  · rintro R j ⟨rfl⟩ ⟨rfl⟩
    exact ⟨_, u, hself, hfam, hu, hstid.trans htid, hssub.trans hsub⟩
  · rintro j ⟨rfl⟩
    exact ⟨_, hself, nofun⟩

theorem Sees.revoke (p : RefreshToken → Bool) :
    Sees S { S with rows := S.rows.mapValues fun _ r ↦ revokedRow p r } t where
  minted := List.Subset.refl _
  families := List.Subset.refl _
  grows {j r} hr := ⟨revokedRow p r, by rw [Dict.get?_mapValues, hr, Option.map_some],
    rowGrows_revokedRow p r⟩
  origin {j r'} hr' := by
    rw [Dict.get?_mapValues, Option.map_eq_some_iff] at hr'
    obtain ⟨r, hr, rfl⟩ := hr'
    exact .inl ⟨r, hr, rowGrows_revokedRow p r, fun u _ h ↦ revokedRow_replacedBy p r ▸ h⟩

theorem TableOk.revoke (h : TableOk S) (p : RefreshToken → Bool) :
    TableOk { S with rows := S.rows.mapValues fun _ r ↦ revokedRow p r } := by
  refine h.grow rfl rfl fun {j r'} hr' ↦ ?_
  rw [Dict.get?_mapValues, Option.map_eq_some_iff] at hr'
  obtain ⟨r, hr, rfl⟩ := hr'
  exact ⟨r, hr, rowGrows_revokedRow p r, revokedRow_jti p r,
    fun n hn ↦ .inl (revokedRow_replacedBy p r ▸ hn)⟩

/-- **The step lemma.** -/
theorem Sound.move (h : Sound S ph) (hi : ph i = some t)
    (hm : Move S t S' t') : Sound S' (Function.update ph i (some t')) := by
  have ht := h.thread hi
  have hapart {k : ℕ} {t₂ : Phase} (hk : k ≠ i) (hkt : ph k = some t₂) : Apart t t₂ :=
    h.apart hk.symm hi hkt
  cases hm with
  | idle => exact h.update h.table ht fun k t₂ hk hkt ↦ ⟨h.thread hkt, hapart hk hkt⟩
  | read jti =>
    refine h.update h.table { ht with row := fun {r} hr ↦ ?_ } fun k t₂ hk hkt ↦
      ⟨h.thread hkt, { hapart hk hkt with }⟩
    obtain ⟨hr, -⟩ := Option.filter_eq_some_iff.mp hr
    rw [h.table.jti hr]
    exact ⟨r, hr, rfl, rfl, rfl⟩
  | sign c hc =>
    have hsees (t₂ : Phase) : Sees S { S with minted := c :: S.minted } t₂ :=
      .of_rows rfl (List.subset_cons_self ..) (List.Subset.refl _)
    exact h.update (h.table.sign hc) (ht.mono (hsees t)) fun k t₂ hk hkt ↦
      ⟨(h.thread hkt).mono (hsees t₂), hapart hk hkt⟩
  | signRefresh c hc hfresh =>
    have hsees (t₂ : Phase) : Sees S { S with minted := c :: S.minted } t₂ :=
      .of_rows rfl (List.subset_cons_self ..) (List.Subset.refl _)
    refine h.update (h.table.sign hc) { ht.mono (hsees t) with
      fresh_minted := ?_, fresh_unstored := ?_, fresh_edge := ?_, right_parent := ?_ }
      fun k t₂ hk hkt ↦ ⟨(h.thread hkt).mono (hsees t₂), { hapart hk hkt with fresh := ?_ }⟩
    · rintro u ⟨rfl⟩
      exact ⟨c, List.mem_cons_self, rfl, rfl, rfl⟩
    · rintro u ⟨rfl⟩
      cases hget : S.rows.get? c.jti with
      | none => rfl
      | some r =>
        obtain ⟨d, hd, hjti, -⟩ := h.table.minted hget
        exact absurd hjti (hc d hd)
    · rintro u j r ⟨rfl⟩ hr hedge
      obtain ⟨d, hd, hjti⟩ := h.table.edge_minted hr hedge
      exact absurd hjti (hc d hd)
    · intro R j hR hj
      obtain ⟨-, u, -, -, hu, -⟩ := ht.right_parent hR hj
      rw [hfresh] at hu
      cases hu
    · rintro u u' ⟨rfl⟩ hu' hjti
      obtain ⟨d, hd, hjti', -⟩ := (h.thread hkt).fresh_minted hu'
      exact hc d hd (hjti'.trans hjti.symm)
  | draw familyId hf hright =>
    have hsees (t₂ : Phase) : Sees S { S with families := familyId :: S.families } t₂ :=
      .of_rows rfl (List.Subset.refl _) (List.subset_cons_self ..)
    -- nothing is in a family that has never been drawn
    have hnone {j : String} {r : RefreshToken} (hr : S.rows.get? j = some r) :
        r.familyId ≠ familyId := fun hfam ↦ hf (hfam ▸ h.table.family hr)
    refine h.update (h.table.draw familyId) { ht.mono (hsees t) with
      fresh_edge := ?_, right_family := ?_, right_exclusive := ?_, right_root := ?_,
      right_parent := ?_ }
      fun k t₂ hk hkt ↦ ⟨(h.thread hkt).mono (hsees t₂), { hapart hk hkt with right := ?_ }⟩
    · intro u j r hu hr hedge
      obtain ⟨R, hR, -⟩ := ht.fresh_edge hu hr hedge
      rw [hright] at hR
      cases hR
    · rintro R ⟨rfl⟩
      exact List.mem_cons_self
    · rintro R j r ⟨rfl⟩ hr hfam
      exact absurd hfam (hnone hr)
    · rintro R j r ⟨rfl⟩ - hr
      exact hnone hr
    · rintro R j ⟨rfl⟩ hj
      cases hj
    · rintro R R' ⟨rfl⟩ hR' hfam
      rw [show familyId = R'.family from hfam] at hf
      exact hf ((h.thread hkt).right_family hR')
  | insert u R expiresAt hu hR =>
    have hsees : Sees S { S with rows := S.rows.set u.jti (newRow u R.family expiresAt) }
        { t with fresh := none, right := none } := .insert ht hu R.family expiresAt nofun nofun
    have ht' : ThreadOk S { t with fresh := none, right := none } :=
      { presented := ht.presented, row := ht.row, exchanged := ht.exchanged,
        fresh_minted := nofun, fresh_unstored := nofun, fresh_edge := nofun,
        right_family := nofun, right_exclusive := nofun, right_root := nofun,
        right_parent := nofun }
    refine h.update (h.table.insert ht hu hR expiresAt) (ht'.mono hsees) fun k t₂ hk hkt ↦
      ⟨(h.thread hkt).mono (.insert ht hu R.family expiresAt ?_ ?_),
        ⟨nofun, nofun, (hapart hk hkt).exchanged⟩⟩
    · exact fun u' hu' ↦ ((hapart hk hkt).fresh hu hu').symm
    · exact fun R' hR' ↦ (hapart hk hkt).right hR hR'
  | rotate r s u hright hrow hu htid hsub hs hactive =>
    obtain ⟨s', hs', hfam, -⟩ := ht.row hrow
    obtain rfl : s = s' := Option.some.inj (hs.symm.trans hs')
    refine h.update (h.table.rotate ht hu hs hactive)
      (ht.rotate h.table hright hrow hu htid hsub hs hactive) fun k t₂ hk hkt ↦
      ⟨(h.thread hkt).mono (.rotate hs hactive fun u' hu' ↦ ((hapart hk hkt).fresh hu hu').symm),
        { hapart hk hkt with right := ?_, exchanged := ?_ }⟩
    · -- the right of another request would exclude the token that was active
      rintro R R' ⟨rfl⟩ hR' hRfam
      exact (h.thread hkt).right_exclusive hR' hs (hfam.trans hRfam) hactive
    · rintro j ⟨rfl⟩ hj
      obtain ⟨r', hr', hne⟩ := (h.thread hkt).exchanged hj
      obtain rfl : s = r' := Option.some.inj (hs.symm.trans hr')
      exact hne hactive
  | revoke p =>
    exact h.update (h.table.revoke p) (ht.mono (.revoke p)) fun k t₂ hk hkt ↦
      ⟨(h.thread hkt).mono (.revoke p), hapart hk hkt⟩

/-! ## Whole runs -/

abbrev AuthConf := Conf authSig Response AuthRequest World Phase

abbrev AuthThread := Thread authSig Response AuthRequest Phase

/-- The service when it starts: any tenants, users and members, and no token yet. -/
def boot (s : Store) (now : Time) : AuthConf where
  state := {
    store := { s with refreshTokens := ∅, revokedJtis := ∅, issuedJtis := ∅ }
    clock := now }
  threads := []

abbrev rowsOf (C : AuthConf) : Dict String RefreshToken := C.state.store.refreshTokens

/-- The invariant of the service: the tokens are in order, and every request will keep the
discipline. -/
structure WellRun (A : AuthService) (b : Backend) (C : AuthConf) : Prop where
  sound : Sound C.state.tokens C.phases
  disciplined : (server A b).Disciplined served C

variable {A : AuthService} {b : Backend} {C C' : AuthConf} {ls : List (Label AuthRequest Input)}

theorem tableOk_of_empty (hrows : S.rows = ∅) (hminted : S.minted = []) : TableOk S := by
  have hnone {j : String} {r : RefreshToken} (hr : S.rows.get? j = some r) : False := by
    rw [hrows, Dict.get?_empty] at hr
    cases hr
  have hnil {c : Claims} (hc : c ∈ S.minted) : False := by
    rw [hminted] at hc
    cases hc
  exact {
    minted_unique := fun _ hc ↦ (hnil hc).elim
    jti := fun hr ↦ (hnone hr).elim
    minted := fun hr ↦ (hnone hr).elim
    family := fun hr ↦ (hnone hr).elim
    active_unique := fun hr ↦ (hnone hr).elim
    owner := fun hr ↦ (hnone hr).elim
    edge_minted := fun hr ↦ (hnone hr).elim
    edge_family := fun hr ↦ (hnone hr).elim }

theorem wellRun_boot (s : Store) (now : Time) : WellRun A b (boot s now) where
  sound := ⟨tableOk_of_empty rfl rfl, (fun h ↦ nomatch h), (fun _ h ↦ nomatch h)⟩
  disciplined _ h := nomatch h

theorem Sound.spawn {req : AuthRequest} (h : Sound C.state.tokens C.phases)
    (hreq : (server A b).startable C.state req) : Sound C.state.tokens
      (⟨C.state, C.threads ++ [(server A b).newThread req]⟩ : AuthConf).phases := by
  rw [Server.phases_spawn]
  refine h.update h.table ?_ fun k t₂ _ hkt ↦ ⟨h.thread hkt, ⟨nofun, nofun, nofun⟩⟩
  exact {
    presented := hreq, row := nofun, fresh_minted := nofun, fresh_unstored := nofun
    fresh_edge := nofun, right_family := nofun, right_exclusive := nofun, right_root := nofun
    right_parent := nofun, exchanged := nofun }

theorem Sound.rely {c : AuthCall}
    (h : Sound C.state.tokens C.phases) (hth : C.threads[i]? = some th) :
    th.phase.rely c (exec A b c input C.state).1 := by
  have ht : ThreadOk C.state.tokens th.phase := h.thread (i := i) (by rw [Conf.phases, hth]; rfl)
  unfold Phase.rely
  split
  · rename_i jti scope r hr
    obtain ⟨hget, -⟩ : C.state.tokens.rows.get? jti = some r ∧ b.sees scope r.tenantId = true := by
      rw [exec, b.exec_getRefreshToken] at hr
      exact Option.filter_eq_some_iff.mp (Except.ok.inj hr)
    refine ⟨h.table.jti hget, fun c hc hjti ↦ ?_⟩
    obtain ⟨d, hd, hdjti, htid, hsub⟩ := h.table.minted hget
    obtain rfl := h.table.minted_unique c (ht.presented c hc) d hd (hjti.trans hdjti.symm)
    exact ⟨htid.symm, hsub.symm⟩
  · trivial

/-- **The run lemma**: the invariant holds in every configuration of every run. -/
theorem WellRun.run (h : WellRun A b C) (hrun : (server A b).run ls C = some C') :
    WellRun A b C' := by
  have hcall {C : AuthConf} {i : ℕ} {th : AuthThread}
      {c : AuthCall} {k : authSig.Answer c → Handler Response} {input : Input}
      (hC : Sound C.state.tokens C.phases) (hth : C.threads[i]? = some th)
      (hallowed : th.phase.allowed c) (hadm : admissible C.state c input) :
      th.phase.rely c (exec A b c input C.state).1 ∧
        Sound ((server A b).answered C i th c k input).state.tokens
          ((server A b).answered C i th c k input).phases := by
    refine ⟨hC.rely hth, ?_⟩
    rw [Server.phases_answered hth]
    exact hC.move (by rw [Conf.phases, hth]; rfl) (exec_move hallowed hadm)
  obtain ⟨hsound, hdis⟩ := Server.disciplined_invariant (V := server A b)
    (P := fun C ↦ Sound C.state.tokens C.phases) (serve_wp A) (fun hC hreq ↦ hC.spawn hreq)
    (fun hC hth _ hallowed hadm ↦ hcall hC hth hallowed hadm) h.sound h.disciplined hrun
  exact ⟨hsound, hdis⟩

/-- **Everything a step of a run can do**: a request arrives, or a running one makes a legitimate
call. -/
theorem WellRun.apply_cases {l : Label AuthRequest Input} (h : WellRun A b C)
    (hl : (server A b).apply C l = some C') :
    (∃ req, C' = ⟨C.state, C.threads ++ [(server A b).newThread req]⟩) ∨
    (∃ i th c k input, C.threads[i]? = some th ∧ th.prog = .call c k ∧
      C' = (server A b).answered C i th c k input ∧ ThreadOk C.state.tokens th.phase ∧
      th.phase.allowed c ∧ admissible C.state c input) := by
  rcases Server.apply_cases hl with ⟨req, -, -, rfl⟩ | ⟨i, input, th, c, k,
    -, hth, hprog, hadm, rfl⟩
  · exact .inl ⟨req, rfl⟩
  · have hwp := h.disciplined th (List.mem_of_getElem? hth)
    rw [hprog, Prog.wp_call] at hwp
    exact .inr ⟨i, th, c, k, input, hth, hprog, rfl,
      h.sound.thread (i := i) (by rw [Conf.phases, hth]; rfl), hwp.1, hadm⟩

/-- **The rule for properties of the token state.** What every move keeps, of the state together
with the phase of the request that makes it, is kept by every run. Only running requests move. -/
theorem WellRun.run_moves {R : TokenState → Prop} {I : Phase → Prop}
    (hstart : ∀ req, I ((server A b).start req))
    (hmove : ∀ {S S' : TokenState} {t t' : Phase}, Move S t S' t' → TableOk S → ThreadOk S t →
      R S → I t → R S' ∧ I t') (h : WellRun A b C) (hR : R C.state.tokens)
    (hI : ∀ th ∈ C.threads, th.prog.running = true → I th.phase)
    (hrun : (server A b).run ls C = some C') :
    R C'.state.tokens ∧ ∀ th ∈ C'.threads, th.prog.running = true → I th.phase := by
  suffices hall : WellRun A b C' ∧ R C'.state.tokens ∧
      ∀ th ∈ C'.threads, th.prog.running = true → I th.phase from hall.2
  refine Server.run_invariant (P := fun C ↦ WellRun A b C ∧ R C.state.tokens ∧
    ∀ th ∈ C.threads, th.prog.running = true → I th.phase) ?_ ⟨h, hR, hI⟩ hrun
  rintro l C₁ C₂ ⟨h₁, hR₁, hI₁⟩ hl
  have hrun₁ : (server A b).run [l] C₁ = some C₂ := by rw [Server.run, hl]; rfl
  refine ⟨h₁.run hrun₁, ?_⟩
  rcases h₁.apply_cases hl with ⟨req, rfl⟩ | ⟨i, th, c, k, input, hth, hprog, rfl, ht, hc, hadm⟩
  · refine ⟨hR₁, fun th' hth' hrunning ↦ ?_⟩
    rcases List.mem_append.mp hth' with hmem | hmem
    · exact hI₁ th' hmem hrunning
    · rw [List.mem_singleton.mp hmem]
      exact hstart req
  · have hIth := hI₁ th (List.mem_of_getElem? hth) (by rw [hprog]; rfl)
    obtain ⟨hR₂, hnext⟩ := hmove (exec_move hc hadm) h₁.sound.table ht hR₁ hIth
    refine ⟨hR₂, fun th' hth' hrunning ↦ ?_⟩
    rcases Server.mem_threads_answered hth' with hmem | rfl
    · exact hI₁ th' hmem hrunning
    · exact hnext

/-- A step of request `i`, told by what `f` says about the call it is about to make. -/
theorem WellRun.step_call {β : Type} {f : AuthCall → Option β} {x : β}
    (h : WellRun A b C) (hstep : (server A b).apply C (.step i input) = some C')
    (hcall : (C.threads[i]?.bind fun th ↦ th.prog.pending.bind f) = some x) :
    ∃ th c k, C.threads[i]? = some th ∧ th.prog = .call c k ∧ f c = some x ∧
      C' = (server A b).answered C i th c k input ∧ ThreadOk C.state.tokens th.phase ∧
      th.phase.allowed c ∧ admissible C.state c input := by
  rcases Server.apply_cases hstep with
    ⟨req, hl, -⟩ | ⟨i', input', th, c, k, hl, hth, hprog, hadm, rfl⟩
  · cases hl
  cases hl
  have hwp := h.disciplined th (List.mem_of_getElem? hth)
  rw [hprog, Prog.wp_call] at hwp
  refine ⟨th, c, k, hth, hprog, ?_, rfl, ?_, hwp.1, hadm⟩
  · simpa [hth, hprog, Prog.pending] using hcall
  · exact h.sound.thread (i := i) (by rw [Conf.phases, hth]; rfl)

theorem Move.grows (hm : Move S t S' t') (ht : ThreadOk S t)
    (hr : S.rows.get? j = some r) : ∃ r', S'.rows.get? j = some r' ∧ RowGrows r r' := by
  cases hm with
  | insert u R expiresAt hu hR =>
    have hsees : Sees S { S with rows := S.rows.set u.jti (newRow u R.family expiresAt) }
        { presented := [] } := .insert ht hu R.family expiresAt nofun nofun
    exact hsees.grows hr
  | rotate r₀ s u hright hrow hu htid hsub hs hactive =>
    have hsees : Sees S { S with rows := S.rows.modify r₀.jti (rotatedRow u.jti) }
        { presented := [] } := .rotate hs hactive nofun
    exact hsees.grows hr
  | revoke p => exact (Sees.revoke (t := t) p).grows hr
  | _ => exact ⟨r, hr, .refl r⟩

theorem WellRun.grows (h : WellRun A b C) (hrun : (server A b).run ls C = some C')
    (hr : (rowsOf C).get? j = some r) :
    ∃ r', (rowsOf C').get? j = some r' ∧ RowGrows r r' := by
  have hkept := h.run_moves (R := fun S ↦ ∃ r', S.rows.get? j = some r' ∧ RowGrows r r')
    (I := fun _ ↦ True) (fun _ ↦ trivial) ?_ ⟨r, hr, .refl r⟩ (fun _ _ _ ↦ trivial) hrun
  · exact hkept.1
  · rintro S S' t t' hm - ht ⟨r₁, hr₁, hg₁⟩ -
    obtain ⟨r₂, hr₂, hg₂⟩ := hm.grows ht hr₁
    exact ⟨⟨r₂, hr₂, hg₁.trans hg₂⟩, trivial⟩

/-- The id of the refresh token that a request has exchanged: it is a refresh, and it has answered
with a new pair. -/
def exchangedBy (th : AuthThread) : Option String :=
  match th.req, th.prog with
  | .refresh token, .ret (.tokens _) => token.claims?.map (·.jti)
  | _, _ => none

theorem WellRun.exchanged_of_exchangedBy (h : WellRun A b C) {jti : String}
    (hmem : th ∈ C.threads) (hjti : exchangedBy th = some jti) : th.phase.exchanged = some jti := by
  rw [exchangedBy] at hjti
  split at hjti
  · rename_i token resp hreq hret
    have hwp := h.disciplined th hmem
    rw [hret, Prog.wp_ret] at hwp
    obtain ⟨c, hc, hexchanged⟩ := hwp token hreq _ rfl
    rw [hc, Option.map_some] at hjti
    exact hexchanged.trans hjti
  · cases hjti

/-- **Refresh rotation is exactly-once.** In every run of the service, on either backend: two
requests that answered a refresh of the same token with a pair are the same request, no two tokens
of a family are active, and a stored token is never lost and moves only from active to rotated to
revoked, or from active to revoked. -/
theorem refresh_rotation_exactly_once (A : AuthService) (b : Backend) (s : Store) (now : Time)
    (ls ls' : List (Label AuthRequest Input)) (C C' : AuthConf)
    (hrun : (server A b).run ls (boot s now) = some C) (hrun' : (server A b).run ls' C = some C') :
    (∀ (i k : ℕ) th th' jti, C.threads[i]? = some th → C.threads[k]? = some th' →
      exchangedBy th = some jti → exchangedBy th' = some jti → i = k) ∧
    (∀ j k r r', (rowsOf C).get? j = some r → (rowsOf C).get? k = some r' →
      r.familyId = r'.familyId → r.status = .active → r'.status = .active → j = k) ∧
    (∀ j r, (rowsOf C).get? j = some r →
      ∃ r', (rowsOf C').get? j = some r' ∧ StatusReach r.status r'.status) := by
  have h : WellRun A b C := (wellRun_boot s now).run hrun
  refine ⟨fun i k th th' jti hth hth' hi hk ↦ ?_, ?_, ?_⟩
  · by_contra hne
    have hapart : Apart th.phase th'.phase :=
      h.sound.apart hne (by rw [Conf.phases, hth]; rfl) (by rw [Conf.phases, hth']; rfl)
    exact hapart.exchanged (h.exchanged_of_exchangedBy (List.mem_of_getElem? hth) hi)
      (h.exchanged_of_exchangedBy (List.mem_of_getElem? hth') hk)
  · intro j k r r' hr hr' hfam hactive hactive'
    exact h.sound.table.active_unique hr hr' hfam hactive hactive'
  · intro j r hr
    obtain ⟨r', hr', hg⟩ := h.grows hrun' hr
    exact ⟨r', hr', hg.status⟩

/-! ## A small deployment

One tenant with one member, and cryptography one can compute with. The runs that show that a
statement is not void, and the runs that refute one, are runs of this service. -/

namespace Sample

def crypto : Crypto where
  argonVerify hash password := hash = password
  argonNeedsRehash _ := false
  argonHash password _ := password
  scryptLegacy password _ := password
  verifyTotp _ _ _ := .ok true
  sha256 s := s

def service : AuthService where
  issuer := "fusion-identity"
  audience := "fusion"
  ttl := 28800
  refreshTtl := 604800
  keyRing := ⟨"HS256", "key", none, ∅⟩
  mfaEnforceAdmin := false
  emailVerificationRequired := false
  ssoTicketTtl := 60
  crypto := crypto

def user : User where
  userId := "usr_ann"
  username := "ann"
  passwordHash := ""
  passwordHashV := "secret"
  salt := ""
  passwordAlgo := .argon2id
  status := "active"
  failedAttempts := 0
  lockedUntil := none
  mustChangePassword := false
  lastLoginAt := none
  emailVerified := true
  passwordResetTokenHash := none
  passwordResetExpires := none

def store : Store where
  tenants := Dict.set ∅ "acme" ⟨"acme", "Acme", "active", "team", "invite"⟩
  users := Dict.set ∅ "usr_ann" user
  members := Dict.set ∅ ("acme", "usr_ann") ⟨"tenant_admin"⟩

/-- The declared schema, with the environment variable unset. -/
def declared : PgConfig := ⟨900, true, true⟩

def loginRequest : AuthRequest := .login ⟨"ann", "secret", some "acme", none⟩ false

/-- The next `n` calls of request `i`, all at time `now`, with draws that carry a tag. -/
def steps (i : ℕ) (now : Time) (tag : String) (n : ℕ) : List (Label AuthRequest Input) :=
  ((["0", "1", "2", "3", "4", "5", "6", "7", "8", "9", "A", "B", "C", "D", "E", "F"].map
    (tag ++ ·)).take n).map fun d ↦ .step i ⟨now, d⟩

def signed (tokenType : TokenType) (ttl : ℤ) (now : Time) (jti : String) : Token :=
  encodeToken service.keyRing (issuedClaims service.issuer service.audience
    ⟨"usr_ann", "acme", "tenant_admin", roleScopes "tenant_admin", ttl, tokenType⟩ now jti)

/-- Two refreshes of one token, both past their checks before either of them swaps. -/
def race : List (Label AuthRequest Input) :=
  [.spawn loginRequest] ++ steps 0 1000 "a" 14 ++
    [.spawn (.refresh (signed .refresh 604800 1000 "aA")),
      .spawn (.refresh (signed .refresh 604800 1000 "aA"))] ++
    steps 1 1001 "b" 6 ++ steps 2 1001 "c" 6 ++ steps 1 1002 "d" 6 ++ steps 2 1002 "e" 3

end Sample

open Sample in
theorem refresh_rotation_exactly_once_race :
    ∃ C, (server service .inMemory).run race (boot store 1000) = some C ∧
      (∀ (i k : ℕ) th th' jti, C.threads[i]? = some th → C.threads[k]? = some th' →
        exchangedBy th = some jti → exchangedBy th' = some jti → i = k) ∧
      C.threads.map exchangedBy = [none, some "aA", none] := by
  have hrun : ∃ C ∈ (server service .inMemory).run race (boot store 1000),
      C.threads.map exchangedBy = [none, some "aA", none] := by decide +kernel
  obtain ⟨C, hC, hexchanged⟩ := hrun
  exact ⟨C, hC, (refresh_rotation_exactly_once service .inMemory store 1000 race [] C C hC rfl).1,
    hexchanged⟩

end FusionIdentity
