import FusionIdentity.Auth.Rotation

/-!
# Revocation against rotation

A family is revoked by `logout` and by reuse detection, and all families of a user by a password
change, a password reset and `DELETE /sessions`. A refresh first rotates the old token away and
stores the new one a few calls later; a revocation that falls in between does not see the new token,
and it comes out active (`revocation_undone_by_refresh_midway`). Row-level security hides the rows
of other tenants from a password change, so that those stay as they are.

There is no other gap. The invariant behind it is `DeadFamily`: a family that has members, all of
them revoked, and to which no running request has a right, stays that way.
-/

namespace FusionIdentity

open Foundation

/-! ## Targets and descendants -/

inductive Target
  | family (familyId : String)
  | user (userId : String) (scope : Scope)
  deriving DecidableEq

/-- The row is of the family, or of the user and not hidden from the request. -/
def Target.hits (b : Backend) : Target → RefreshToken → Bool
  | family f, r => r.familyId = f
  | user u scope, r => r.userId = u && b.sees scope r.tenantId

def AuthCall.revokes : AuthCall → Option Target
  | .store (.revokeRefreshFamily f) => some (.family f)
  | .store (.revokeUserSessions u scope) => some (.user u scope)
  | _ => none

def aboutToRevoke (C : AuthConf) (i : ℕ) : Option Target :=
  C.threads[i]?.bind fun th ↦ th.prog.pending.bind AuthCall.revokes

/-- The request has rotated away a token of the target and not stored the successor yet. -/
def Phase.midRotation (t : Phase) : Target → Bool
  | .family f => t.right.any fun R ↦ R.parent.isSome && R.family = f
  | .user u _ => t.right.any (·.parent.isSome) && t.fresh.any (·.sub = u)

/-- The second token was issued in exchange for the first. -/
def Succeeds (rows : Dict String RefreshToken) (j k : String) : Prop :=
  ∃ r, rows.get? j = some r ∧ r.replacedBy = some k

/-- The second token descends from the first by rotation. -/
abbrev Descends (rows : Dict String RefreshToken) : String → String → Prop :=
  Relation.ReflTransGen (Succeeds rows)

variable {b : Backend} {S S' : TokenState} {t t' : Phase}

variable {j k familyId : String} {r : RefreshToken} {target : Target}

theorem TableOk.descends_family (h : TableOk S) {r' : RefreshToken}
    (hr : S.rows.get? j = some r) (hdesc : Descends S.rows j k) (hr' : S.rows.get? k = some r') :
    r'.familyId = r.familyId := by
  induction hdesc generalizing r' with
  | refl => rw [Option.some.inj (hr'.symm.trans hr)]
  | tail _ hstep ih =>
    obtain ⟨s, hs, hedge⟩ := hstep
    rw [h.edge_family hs hedge hr', ih hs]

/-! ## Dead families -/

/-- The family has members, and all of them are revoked. -/
structure DeadRows (familyId : String) (S : TokenState) : Prop where
  inhabited : ∃ j r, S.rows.get? j = some r ∧ r.familyId = familyId
  revoked : ∀ {j r}, S.rows.get? j = some r → r.familyId = familyId → r.status = .revoked

/-- The request has no right to the family. -/
def Phase.without (familyId : String) (t : Phase) : Prop :=
  ∀ R, t.right = some R → R.family ≠ familyId

/-- **A move keeps a family dead**, if the request that makes it has no right to the family; and it
does not get one. -/
theorem Move.dead (hm : Move S t S' t') (h : TableOk S) (ht : ThreadOk S t)
    (hdead : DeadRows familyId S) (hright : t.without familyId) :
    DeadRows familyId S' ∧ t'.without familyId := by
  obtain ⟨j₀, r₀, hr₀, hfam₀⟩ := hdead.inhabited
  have hinhabited : ∃ j r, S'.rows.get? j = some r ∧ r.familyId = familyId := by
    obtain ⟨r', hr', hg⟩ := hm.grows ht hr₀
    exact ⟨j₀, r', hr', hg.familyId.trans hfam₀⟩
  cases hm with
  | idle | read => exact ⟨hdead, hright⟩
  | sign | signRefresh => exact ⟨⟨hinhabited, hdead.revoked⟩, hright⟩
  | draw f hf hnone =>
    refine ⟨⟨hinhabited, hdead.revoked⟩, ?_⟩
    rintro R ⟨rfl⟩ hfam
    rw [show f = familyId from hfam, ← hfam₀] at hf
    exact hf (h.family hr₀)
  | insert u R expiresAt hu hR =>
    refine ⟨⟨hinhabited, fun {j r} hr hfam ↦ ?_⟩, nofun⟩
    rw [Dict.get?_set] at hr
    split_ifs at hr with hj
    · rw [← Option.some.inj hr] at hfam
      exact absurd hfam (hright R hR)
    · exact hdead.revoked hr hfam
  | rotate r s u hnone hrow hu htid hsub hs hactive =>
    -- an active row is not in a dead family
    have hsfam : s.familyId ≠ familyId := fun hfam ↦ by
      rw [hdead.revoked hs hfam] at hactive
      cases hactive
    refine ⟨⟨hinhabited, fun {j r'} hr' hfam ↦ ?_⟩, ?_⟩
    · rw [Dict.get?_modify] at hr'
      split_ifs at hr' with hj
      · rw [hj, hs, Option.map_some, Option.some.injEq] at hr'
        rw [← hr'] at hfam
        exact absurd hfam hsfam
      · exact hdead.revoked hr' hfam
    · rintro R ⟨rfl⟩ hfam
      obtain ⟨s', hs', hfam', -⟩ := ht.row hrow
      obtain rfl : s = s' := Option.some.inj (hs.symm.trans hs')
      exact hsfam (hfam'.trans hfam)
  | revoke p =>
    refine ⟨⟨hinhabited, fun {j r'} hr' hfam ↦ ?_⟩, hright⟩
    rw [Dict.get?_mapValues, Option.map_eq_some_iff] at hr'
    obtain ⟨r, hr, rfl⟩ := hr'
    have hg := rowGrows_revokedRow p r
    have hrevoked := hdead.revoked hr (hg.familyId ▸ hfam)
    exact (hrevoked ▸ hg.status).revoked

/-- A dead family: dead rows, and no running request with a right to it. -/
structure DeadFamily (familyId : String) (C : AuthConf) : Prop where
  rows : DeadRows familyId C.state.tokens
  rights : ∀ th ∈ C.threads, th.prog.running = true → th.phase.without familyId

variable {A : AuthService} {C C' : AuthConf} {ls : List (Label AuthRequest Input)}

/-- **The run lemma**: a dead family stays dead. -/
theorem DeadFamily.run (hdead : DeadFamily familyId C) (h : WellRun A b C)
    (hrun : (server A b).run ls C = some C') : DeadFamily familyId C' := by
  obtain ⟨hrows, hrights⟩ := h.run_moves (R := DeadRows familyId) (I := Phase.without familyId)
    (fun _ ↦ nofun) (fun hm h ht hdead hright ↦ hm.dead h ht hdead hright) hdead.rows hdead.rights
    hrun
  exact ⟨hrows, hrights⟩

/-! ## The revocation -/

theorem exec_revokes {c : AuthCall} (hc : c.revokes = some target) (input : Input)
    (w : World) (t : Phase) : (exec A b c input w).2.tokens =
        { w.tokens with rows := w.tokens.rows.mapValues fun _ r ↦ revokedRow (target.hits b) r } ∧
      t.next c (exec A b c input w).1 = t := by
  unfold AuthCall.revokes at hc
  split at hc
  · obtain rfl := Option.some.inj hc
    cases b <;> exact ⟨rfl, rfl⟩
  · rename_i u scope
    obtain rfl := Option.some.inj hc
    cases b with
    | inMemory =>
      have hall : Target.hits .inMemory (.user u scope) = fun r ↦ decide (r.userId = u) :=
        funext fun _ ↦ Bool.and_true _
      rw [hall]
      exact ⟨rfl, rfl⟩
    | postgres cfg => exact ⟨rfl, rfl⟩
  · cases hc

/-- A revocation hits a family as a whole: all rows of a family have one owner. -/
theorem TableOk.hits_family (h : TableOk S) {s : RefreshToken}
    (hr : S.rows.get? j = some r) (hs : S.rows.get? k = some s) (hfam : s.familyId = r.familyId)
    (hhit : target.hits b r = true) : target.hits b s = true := by
  cases target with
  | family f => simpa [Target.hits, hfam] using hhit
  | user u scope =>
    obtain ⟨htenant, huser⟩ := h.owner hs hr hfam
    simpa [Target.hits, htenant, huser] using hhit

/-- A request with a right to a family that a revocation hits is in the window. -/
theorem ThreadOk.midRotation (ht : ThreadOk S t) (h : TableOk S)
    {R : FamilyRight} (hr : S.rows.get? j = some r)
    (hhit : target.hits b r = true) (hR : t.right = some R) (hfam : R.family = r.familyId) :
    t.midRotation target = true := by
  obtain ⟨p, hp⟩ : ∃ p, R.parent = some p := by
    rw [← Option.ne_none_iff_exists']
    exact fun hroot ↦ ht.right_root hR hroot hr hfam.symm
  cases target with
  | family f =>
    have hf : r.familyId = f := by simpa [Target.hits] using hhit
    simp [Phase.midRotation, hR, hp, hfam, hf]
  | user u scope =>
    obtain ⟨s, v, hs, hsfam, hv, -, hsub⟩ := ht.right_parent hR hp
    obtain ⟨hu, -⟩ : s.userId = u ∧ b.sees scope s.tenantId = true := by
      simpa [Target.hits] using h.hits_family hr hs (hsfam.trans hfam) hhit
    simp [Phase.midRotation, hR, hp, hv, ← hsub, hu]

/-- A revocation that meets no request in the window kills the families it hits. -/
theorem WellRun.revoke_dead (h : WellRun A b C) {i : ℕ} {input : Input}
    (hrevoke : aboutToRevoke C i = some target)
    (hquiet : ∀ th ∈ C.threads, th.prog.running = true → th.phase.midRotation target = false)
    (hstep : (server A b).apply C (.step i input) = some C')
    (hr : (rowsOf C).get? j = some r) (hhit : target.hits b r = true) :
      DeadFamily r.familyId C' := by
  obtain ⟨th, c, k, hth, hprog, hc, rfl, -⟩ := h.step_call hstep hrevoke
  obtain ⟨htokens, hnext⟩ := exec_revokes (A := A) (b := b) hc input C.state th.phase
  have hrunning : th.prog.running = true := by rw [hprog]; rfl
  have hwithout {th' : AuthThread} (hmem : th' ∈ C.threads) (hrun : th'.prog.running = true) :
      th'.phase.without r.familyId := fun R hR hfam ↦ by
    obtain ⟨i', hi'⟩ := List.getElem?_of_mem hmem
    have ht : ThreadOk C.state.tokens th'.phase :=
      h.sound.thread (i := i') (by rw [Conf.phases, hi']; rfl)
    have hmid := ht.midRotation h.sound.table hr hhit hR hfam
    rw [hquiet th' hmem hrun] at hmid
    cases hmid
  refine ⟨?_, fun th' hth' hrun ↦ ?_⟩
  · change DeadRows r.familyId (exec A b c input C.state).2.tokens
    rw [htokens]
    refine ⟨⟨j, revokedRow (target.hits b) r, ?_, (rowGrows_revokedRow _ r).familyId⟩, ?_⟩
    · rw [Dict.get?_mapValues, show C.state.tokens.rows.get? j = some r from hr, Option.map_some]
    · intro k' r' hr' hfam
      rw [Dict.get?_mapValues, Option.map_eq_some_iff] at hr'
      obtain ⟨s, hs, rfl⟩ := hr'
      have hsfam : s.familyId = r.familyId := (rowGrows_revokedRow _ s).familyId ▸ hfam
      exact revokedRow_status (h.sound.table.hits_family hr hs hsfam hhit)
  · rcases Server.mem_threads_answered hth' with hmem | rfl
    · exact hwithout hmem hrun
    · change ((th.phase.next c (exec A b c input C.state).1)).without r.familyId
      rw [hnext]
      exact hwithout (List.mem_of_getElem? hth) hrunning

/-- **Revocation is final when no refresh is under way.** Take any run in which a request revokes a
family or a user, at a moment when no running refresh of that family or user is between its rotation
and the insertion of the new token. Then, however the run goes on, every token that descends from
one of the family or user that row-level security does not hide from the request is revoked. -/
theorem revocation_final_of_no_refresh_midway (A : AuthService) (b : Backend) (s : Store)
    (now : Time) (ls ls' : List (Label AuthRequest Input)) (C C₁ C₂ : AuthConf) (i : ℕ)
    (input : Input) (target : Target) (hrun : (server A b).run ls (boot s now) = some C)
    (hrevoke : aboutToRevoke C i = some target)
    (hquiet : ∀ th ∈ C.threads, th.prog.running = true → th.phase.midRotation target = false)
    (hstep : (server A b).apply C (.step i input) = some C₁)
    (hrun' : (server A b).run ls' C₁ = some C₂) :
    ∀ j r, (rowsOf C).get? j = some r → target.hits b r = true →
      ∀ k r', Descends (rowsOf C₂) j k → (rowsOf C₂).get? k = some r' → r'.status = .revoked := by
  intro j r hr hhit k r' hdesc hr'
  have h : WellRun A b C := (wellRun_boot s now).run hrun
  have hone : (server A b).run [.step i input] C = some C₁ := by rw [Server.run, hstep]; rfl
  have h₁ : WellRun A b C₁ := h.run hone
  have h₂ : WellRun A b C₂ := h₁.run hrun'
  have hdead : DeadFamily r.familyId C₂ := (h.revoke_dead hrevoke hquiet hstep hr hhit).run h₁ hrun'
  -- the token itself is still there, and the descendant is in its family
  obtain ⟨r₁, hr₁, hg₁⟩ := h.grows hone hr
  obtain ⟨r₂, hr₂, hg₂⟩ := h₁.grows hrun' hr₁
  have hfam : r'.familyId = r.familyId :=
    (h₂.sound.table.descends_family hr₂ hdesc hr').trans (hg₂.familyId.trans hg₁.familyId)
  exact hdead.rows.revoked hr' hfam

namespace Sample

/-- A database that does not enforce the reference of `replaced_by`. -/
def looseDb : Backend := .postgres ⟨900, false, true⟩

/-- The access token of the login at time 1000, and the request to log out with it. -/
def logoutRequest (refreshJti : String) : AuthRequest :=
  .logout (some "acme") (signed .access 28800 1000 "a7")
    (some (signed .refresh 604800 1000 refreshJti))

/-- A login, a complete refresh, and a logout up to the revocation of the family. -/
def refreshThenLogout : List (Label AuthRequest Input) :=
  [.spawn loginRequest] ++ steps 0 1000 "a" 14 ++
    [.spawn (.refresh (signed .refresh 604800 1000 "aA"))] ++ steps 1 1001 "b" 12 ++
    [.spawn (logoutRequest "aA")] ++ steps 2 1002 "c" 8

/-- A login, a refresh that stops after its rotation, and a logout up to the revocation of the
family. -/
def logoutMidRefresh : List (Label AuthRequest Input) :=
  [.spawn loginRequest] ++ steps 0 1000 "a" 14 ++
    [.spawn (.refresh (signed .refresh 604800 1000 "aA"))] ++ steps 1 1001 "b" 7 ++
    [.spawn (logoutRequest "aA")] ++ steps 2 1002 "c" 8

end Sample

open Sample in
theorem revocation_final_of_no_refresh_midway_logout :
    ∃ C C₁, (server service .inMemory).run refreshThenLogout (boot store 1000) = some C ∧
      (server service .inMemory).apply C (.step 2 ⟨1003, ""⟩) = some C₁ ∧
      ((rowsOf C).get? "b5").any (·.status = .active) = true ∧
      ∀ j r, (rowsOf C).get? j = some r → Target.hits .inMemory (.family "a9") r = true →
        ∀ k r', Descends (rowsOf C₁) j k → (rowsOf C₁).get? k = some r' → r'.status = .revoked := by
  have heval : ∃ C ∈ (server service .inMemory).run refreshThenLogout (boot store 1000),
      aboutToRevoke C 2 = some (.family "a9") ∧
      (∀ th ∈ C.threads, th.prog.running = true → th.phase.midRotation (.family "a9") = false) ∧
      ((rowsOf C).get? "b5").any (·.status = .active) = true ∧
      ∃ C₁ ∈ (server service .inMemory).apply C (.step 2 ⟨1003, ""⟩), True := by
    decide +kernel
  obtain ⟨C, hC, hrevoke, hquiet, hactive, C₁, hC₁, -⟩ := heval
  exact ⟨C, C₁, hC, hC₁, hactive, revocation_final_of_no_refresh_midway service
    .inMemory store 1000 _
    [] C C₁ C₁ 2 _ _ hC hrevoke hquiet hC₁ rfl⟩

open Sample in
/-- **A revocation can be undone by a refresh in flight.** The refresh has rotated the token, the
logout revokes its family, and the refresh stores the successor: when all requests have finished, a
descendant of the revoked token is active. -/
theorem revocation_undone_by_refresh_midway :
    ∃ C C₁ C₂, (server service looseDb).run logoutMidRefresh (boot store 1000) = some C ∧
      aboutToRevoke C 2 = some (.family "a9") ∧
      (server service looseDb).apply C (.step 2 ⟨1003, ""⟩) = some C₁ ∧
      (server service looseDb).run (steps 2 1003 "d" 1 ++ steps 1 1004 "e" 5) C₁ = some C₂ ∧
      (∀ th ∈ C₂.threads, th.prog.running = false) ∧
      (∃ r, (rowsOf C).get? "aA" = some r ∧ Target.hits looseDb (.family "a9") r = true) ∧
      Descends (rowsOf C₂) "aA" "b5" ∧
      ∃ r', (rowsOf C₂).get? "b5" = some r' ∧ r'.status = .active := by
  have heval : ∃ C ∈ (server service looseDb).run logoutMidRefresh (boot store 1000),
      aboutToRevoke C 2 = some (.family "a9") ∧
      (∃ r ∈ (rowsOf C).get? "aA", Target.hits looseDb (.family "a9") r = true) ∧
      ∃ C₁ ∈ (server service looseDb).apply C (.step 2 ⟨1003, ""⟩),
      ∃ C₂ ∈ (server service looseDb).run (steps 2 1003 "d" 1 ++ steps 1 1004 "e" 5) C₁,
        (∀ th ∈ C₂.threads, th.prog.running = false) ∧
        (∃ r ∈ (rowsOf C₂).get? "aA", r.replacedBy = some "b5") ∧
        ∃ r' ∈ (rowsOf C₂).get? "b5", r'.status = .active := by
    decide +kernel
  obtain ⟨C, hC, hrevoke, hhit, C₁, hC₁, C₂, hC₂, hfinished, hedge, hactive⟩ := heval
  exact ⟨C, C₁, C₂, hC, hrevoke, hC₁, hC₂, hfinished, hhit, .single hedge, hactive⟩

/-- **A session does not change hands.** Take two moments of any run, on either backend, and a
refresh token of the first. What descends from it at the second is in its family, and whatever is in
its family has been signed for the same user and tenant. -/
theorem session_keeps_owner (A : AuthService) (b : Backend) (s : Store) (now : Time)
    (ls ls' : List (Label AuthRequest Input)) (C C' : AuthConf)
    (hrun : (server A b).run ls (boot s now) = some C) (hrun' : (server A b).run ls' C = some C') :
    ∀ j r k r', (rowsOf C).get? j = some r → (rowsOf C').get? k = some r' →
      (Descends (rowsOf C') j k → r'.familyId = r.familyId) ∧ (r'.familyId = r.familyId →
        ∃ c ∈ C'.state.minted, c.jti = k ∧ c.tid = r.tenantId ∧ c.sub = r.userId) := by
  intro j r k r' hr hr'
  have h : WellRun A b C := (wellRun_boot s now).run hrun
  have htable := (h.run hrun').sound.table
  obtain ⟨r₁, hr₁, hgrows⟩ := h.grows hrun' hr
  refine ⟨fun hdesc ↦ (htable.descends_family hr₁ hdesc hr').trans hgrows.familyId,
    fun hfamily ↦ ?_⟩
  obtain ⟨htenant, huser⟩ := htable.owner hr' hr₁ (hfamily.trans hgrows.familyId.symm)
  obtain ⟨c, hc, hjti, htid, hsub⟩ := htable.minted hr'
  exact ⟨c, hc, hjti, htid.trans (htenant.trans hgrows.tenantId),
    hsub.trans (huser.trans hgrows.userId)⟩

open Sample in
theorem session_keeps_owner_refreshed :
    ∃ C ∈ (server service .inMemory).run refreshThenLogout (boot store 1000),
    ∃ r r', (rowsOf C).get? "aA" = some r ∧ (rowsOf C).get? "b5" = some r' ∧
      ∃ c ∈ C.state.minted, c.jti = "b5" ∧ c.tid = r.tenantId ∧ c.sub = r.userId := by
  have heval : ∃ C ∈ (server service .inMemory).run refreshThenLogout (boot store 1000),
      ∃ r ∈ (rowsOf C).get? "aA", ∃ r' ∈ (rowsOf C).get? "b5", r'.familyId = r.familyId := by
    decide +kernel
  obtain ⟨C, hC, r, hr, r', hr', hfamily⟩ := heval
  exact ⟨C, hC, r, r', hr, hr',
    (session_keeps_owner service .inMemory store 1000 _ [] C C hC rfl _ _ _ _
    hr hr').2 hfamily⟩

end FusionIdentity
