import FusionIdentity.Accounts.Oracles
import FusionIdentity.Tenancy.Members

/-!
# The last administrator of a tenant, under concurrency

A role change and a removal refuse to take the last `tenant_admin` from a tenant. They read the
count of the administrators and the role of the member, and write in a third call. Two requests that
both stand between their count and their write each see the other's victim as the administrator that
remains.

When no demotion or removal is written while another request is deciding, every run keeps an
administrator: a request that has passed its guard knows that somebody other than its target is one.
-/

namespace FusionIdentity

open Foundation Foundation.Prog

/-! ## Counting members -/

namespace InMemoryStore

variable {s : Store} {tenantId userId role : String}

theorem getMemberRole_eq_some_iff : getMemberRole s tenantId userId = some role ↔
      ∃ m, ((tenantId, userId), m) ∈ s.members.entries ∧ m.role = role := by
  rw [getMemberRole, Option.map_eq_some_iff]
  simp only [Dict.get?_eq_some_iff]

theorem exists_other_of_two_le (h : 2 ≤ countMembersByRole s tenantId role) (u : String) :
    ∃ v, v ≠ u ∧ getMemberRole s tenantId v = some role := by
  rw [countMembersByRole] at h
  have hnodup := s.members.nodup.sublist
    ((List.filter_sublist (p := fun e ↦ e.1.1 = tenantId ∧ e.2.role = role)).map Prod.fst)
  have hmem {e : (String × String) × Member}
      (he : e ∈ s.members.entries.filter fun e ↦ e.1.1 = tenantId ∧ e.2.role = role) :
      e.1.1 = tenantId ∧ getMemberRole s tenantId e.1.2 = some role := by
    rw [List.mem_filter, decide_eq_true_eq] at he
    refine ⟨he.2.1, getMemberRole_eq_some_iff.mpr ⟨e.2, ?_, he.2.2⟩⟩
    rw [← he.2.1]
    exact he.1
  generalize s.members.entries.filter (fun e ↦ e.1.1 = tenantId ∧ e.2.role = role) =
    l at h hnodup hmem
  match l with
  | [] => simp at h
  | [_] => simp at h
  | e :: e' :: l =>
    have he := hmem List.mem_cons_self
    have he' := hmem (List.mem_cons_of_mem e List.mem_cons_self)
    by_cases hid : e.1.2 = u
    · refine ⟨e'.1.2, fun hid' ↦ ?_, he'.2⟩
      have hsame : e.1 = e'.1 := Prod.ext (he.1.trans he'.1.symm) (hid.trans hid'.symm)
      simp [hsame] at hnodup
    · exact ⟨e.1.2, hid, he.2⟩

theorem getMemberRole_updateMemberRole (s : Store) (tn u role v : String) :
    getMemberRole (updateMemberRole s tn u role) tn v =
      if v = u then (getMemberRole s tn v).map fun _ ↦ role
      else getMemberRole s tn v := by
  rw [getMemberRole, updateMemberRole, Dict.get?_modify]
  by_cases hv : v = u
  · rw [if_pos (by rw [hv]), if_pos hv, Option.map_map, getMemberRole, Option.map_map]
    rfl
  · rw [if_neg (fun h ↦ hv (Prod.mk.inj h).2), if_neg hv, getMemberRole]

theorem countMembersByRole_le_updateMemberRole (s : Store) (tn u role : String) :
    countMembersByRole s tn role ≤ countMembersByRole (updateMemberRole s tn u role) tn role := by
  have hcount (s : Store) : countMembersByRole s tn role =
      s.members.entries.countP fun e ↦ e.1.1 = tn ∧ e.2.role = role := by
    rw [countMembersByRole, List.countP_eq_length_filter]
  rw [hcount, hcount, updateMemberRole, Dict.modify, Dict.mapValues, List.countP_map]
  refine List.countP_mono_left fun e _ he ↦ ?_
  rw [decide_eq_true_eq] at he
  rw [Function.comp_apply, decide_eq_true_eq]
  refine ⟨he.1, ?_⟩
  dsimp only
  split_ifs
  · rfl
  · exact he.2

end InMemoryStore

/-- The member administers the tenant. -/
def Administers (s : Store) (tenantId userId : String) : Prop :=
  InMemoryStore.getMemberRole s tenantId userId = some "tenant_admin"

instance (s : Store) (tenantId userId : String) : Decidable (Administers s tenantId userId) :=
  inferInstanceAs (Decidable (_ = _))

def HasAdmin (s : Store) (tenantId : String) : Prop := ∃ userId, Administers s tenantId userId

/-! ## Requests and what they know -/

/-- A request to one of the two routes, on a tenant that is given elsewhere. -/
inductive RosterRequest
  | updateMemberRole (headers : Headers) (userId role : String)
  | removeMember (headers : Headers) (userId : String)

inductive RosterAnswer
  | updated (member : Member)
  | removed
  deriving DecidableEq

def Platform.serveRoster (P : Platform) (tenantId : String) :
    RosterRequest → RegistryHandler RosterAnswer
  | .updateMemberRole headers userId role =>
      P.updateMemberRole headers tenantId userId role >>= fun m ↦ ret (.updated m)
  | .removeMember headers userId =>
      P.removeMember headers tenantId userId >>= fun _ ↦ ret .removed

/-- How far a request has come: it has counted, or it has also looked at its target. -/
inductive RosterPhase
  | idle
  | counted (n : ℕ)
  | weighed (userId : String) (n : ℕ) (role : Option String)
  deriving DecidableEq

namespace RosterPhase

/-- The request has counted and not yet written. -/
def deciding : RosterPhase → Bool
  | idle => false
  | _ => true

/-- The request has passed the guard for this target. -/
def cleared : RosterPhase → String → Prop
  | weighed u n role, userId => u = userId ∧ ¬ (role = some "tenant_admin" ∧ n ≤ 1)
  | _, _ => False

variable (tenantId : String)

/-- Members are written after the guard, but for a promotion. -/
def allowed : RosterPhase → registrySig.Call → Prop
  | t, .inr (.roster (.updateMemberRole tid userId role)) =>
      tid = tenantId ∧ (role = "tenant_admin" ∨ t.cleared userId)
  | t, .inr (.roster (.removeMember tid userId)) => tid = tenantId ∧ t.cleared userId
  | _, .inr (.roster (.countMembersByRole tid role)) => tid = tenantId ∧ role = "tenant_admin"
  | _, c => quietCall c

def next : RosterPhase → (c : registrySig.Call) → registrySig.Answer c → RosterPhase
  | _, .inr (.roster (.countMembersByRole _ _)), .ok n => counted n
  | counted n, .inl (.inl (.store (.getMemberRole tid userId))), .ok role =>
      if tid = tenantId then weighed userId n role else counted n
  | _, .inr (.roster (.updateMemberRole _ _ _)), _ => idle
  | _, .inr (.roster (.removeMember _ _)), _ => idle
  | t, _, _ => t

/-- What a request knows about the store: it has counted no more administrators than there are, and
once it has passed its guard, somebody besides its target is one. -/
def Knows (s : Store) : RosterPhase → Prop
  | idle => True
  | counted n => n ≤ InMemoryStore.countMembersByRole s tenantId "tenant_admin"
  | weighed userId n role => ¬ (role = some "tenant_admin" ∧ n ≤ 1) →
      ∃ v, v ≠ userId ∧ Administers s tenantId v

end RosterPhase

/-- Any number of requests to the two routes, on one tenant. -/
def rosterServer (P : Platform) (tenantId : String) :
    Server registrySig RosterAnswer RosterRequest Registry Occasion RosterPhase where
  prog := P.serveRoster tenantId
  exec := registryExec P
  admissible _ _ _ := True
  startable _ _ := True
  discipline := ⟨RosterPhase.allowed tenantId, fun _ _ _ ↦ True, RosterPhase.next tenantId⟩
  start _ := .idle
  decAdmissible _ _ _ := inferInstance
  decStartable _ _ := inferInstance

section Discipline

variable {P : Platform} {tenantId : String}

theorem quiet_idle {c : registrySig.Call} (hc : quietCall c) :
    RosterPhase.idle.allowed tenantId c ∧ ∀ r, RosterPhase.idle.next tenantId c r = .idle := by
  match c with
  | .inl (.inl (.store c)) => exact ⟨hc, fun r ↦ by cases c <;> rfl⟩
  | .inl (.inl .time) => exact ⟨hc, fun _ ↦ rfl⟩
  | .inl (.inl .tokenUrlsafe) => exact ⟨hc, fun _ ↦ rfl⟩
  | .inl (.inl .genSalt) => exact ⟨hc, fun _ ↦ rfl⟩
  | .inl (.inl .tokenHex) => exact hc.elim
  | .inl (.inl (.issueToken _)) => exact hc.elim
  | .inl (.inr _) => exact hc.elim
  | .inr _ => exact hc.elim

theorem guardLastAdmin_wp {β : Type} {u detail : String} {f : Unit → RegistryHandler β}
    (hf : ∀ t : RosterPhase, t.cleared u →
      (f ()).wp (rosterServer P tenantId).discipline (fun _ _ ↦ True) t) :
    (Platform.guardLastAdmin tenantId u detail >>= f).wp (rosterServer P tenantId).discipline
      (fun _ _ ↦ True) .idle := by
  rw [Platform.guardLastAdmin, Prog.bind_assoc, wp_onRoster_bind]
  refine ⟨⟨rfl, rfl⟩, fun n _ ↦ ?_, fun _ _ ↦ trivial⟩
  rw [Prog.bind_assoc, askStore_eq]
  refine (wp_perform_bind (σ := registrySig) ..).mpr ⟨rfl, fun role _ ↦ ?_, fun _ _ ↦ trivial⟩
  have hnext : (RosterPhase.counted n).next tenantId
      (.inl (.inl (.store (.getMemberRole tenantId u)))) (.ok role) = .weighed u n role :=
    if_pos rfl
  change Prog.wp _ _ _ ((RosterPhase.counted n).next tenantId
    (.inl (.inl (.store (.getMemberRole tenantId u)))) (.ok role))
  rw [hnext, wp_raiseIf_bind]
  refine ⟨fun _ ↦ trivial, fun hpassed ↦ hf _ ⟨rfl, ?_⟩⟩
  simpa only [decide_eq_false_iff_not] using hpassed

theorem updateMemberRole_wp (headers : Headers) (u role : String) :
    (P.updateMemberRole headers tenantId u role).wp (rosterServer P tenantId).discipline
      (fun _ _ ↦ True) .idle := by
  refine (P.permitted_quiet ..).wp_frame_bind (fun _ ↦ quiet_idle) (fun claims ↦ ?_) fun _ ↦ trivial
  rw [wp_raiseIf_bind]
  refine ⟨fun _ ↦ trivial, fun _ ↦ ?_⟩
  -- the write, once the role is a promotion or the guard has been passed
  have hwrite (t : RosterPhase) (ht : role = "tenant_admin" ∨ t.cleared u) :
      Prog.wp (rosterServer P tenantId).discipline (do
        let updated ← attempt (σ := registrySig)
          (.inr (.roster (.updateMemberRole tenantId u role)))
        let found ← orConflict (.http 400 "invalid role request") updated
        let member ← orRaise found (.http 404 "member not found")
        recordAudit tenantId claims "member.role_change" "member"
          [("user_id", .str u), ("role", .str role)]
        return member) (fun _ _ ↦ True) t := by
    rw [attempt, call_bind, wp_call]
    refine ⟨⟨rfl, ht⟩, fun updated _ ↦ ?_⟩
    refine (orConflict_only (C := fun _ ↦ False) _ updated).wp_frame_bind (t := RosterPhase.idle)
      (fun _ h ↦ h.elim) (fun (found : Option Member) ↦ ?_) fun _ ↦ trivial
    rw [wp_orRaise_bind]
    refine ⟨fun member _ ↦ ?_, fun _ ↦ trivial⟩
    exact (recordAudit_quiet ..).wp_frame_bind (fun _ ↦ quiet_idle)
      (fun _ ↦ trivial) fun _ ↦ trivial
  by_cases hrole : role = "tenant_admin"
  · rw [doWhen, if_neg (by simpa using hrole)]
    exact hwrite .idle (.inl hrole)
  · rw [doWhen, if_pos (by simpa using hrole)]
    exact guardLastAdmin_wp fun t ht ↦ hwrite t (.inr ht)

theorem removeMember_wp (headers : Headers) (u : String) :
    (P.removeMember headers tenantId u).wp (rosterServer P tenantId).discipline
      (fun _ _ ↦ True) .idle := by
  refine (P.permitted_quiet ..).wp_frame_bind (fun _ ↦ quiet_idle) (fun claims ↦ ?_) fun _ ↦ trivial
  rw [wp_raiseIf_bind]
  refine ⟨fun _ ↦ trivial, fun _ ↦ guardLastAdmin_wp fun t ht ↦ ?_⟩
  rw [wp_onRoster_bind]
  refine ⟨⟨rfl, ht⟩, fun ok _ ↦ ?_, fun _ _ ↦ trivial⟩
  change Prog.wp _ _ _ RosterPhase.idle
  rw [wp_raiseIf_bind]
  refine ⟨fun _ ↦ trivial, fun _ ↦ ?_⟩
  exact wp_mono ((recordAudit_quiet ..).wp_frame fun _ ↦ quiet_idle) fun _ _ _ ↦ trivial

theorem serveRoster_wp (req : RosterRequest) :
    (P.serveRoster tenantId req).wp (rosterServer P tenantId).discipline
    (fun _ _ ↦ True) .idle := by
  cases req with
  | updateMemberRole headers userId role =>
    rw [Platform.serveRoster, wp_bind]
    refine wp_mono (updateMemberRole_wp headers userId role) ?_
    rintro (e | m) t -
    · trivial
    · trivial
  | removeMember headers userId =>
    rw [Platform.serveRoster, wp_bind]
    refine wp_mono (removeMember_wp headers userId) ?_
    rintro (e | m) t -
    · trivial
    · trivial

end Discipline

/-! ## What stays true -/

namespace RosterPhase

variable {tenantId : String} {s s' : Store} {t : RosterPhase}

theorem Knows.mono (hcount : InMemoryStore.countMembersByRole s tenantId "tenant_admin" ≤
      InMemoryStore.countMembersByRole s' tenantId "tenant_admin")
    (hadmin : ∀ v, Administers s tenantId v → Administers s' tenantId v) (h : t.Knows tenantId s) :
    t.Knows tenantId s' := by
  cases t with
  | idle => trivial
  | counted n => exact h.trans hcount
  | weighed userId n role =>
    intro hpassed
    obtain ⟨v, hne, hv⟩ := h hpassed
    exact ⟨v, hne, hadmin v hv⟩

theorem knows_weighed {u : String} {n : ℕ} (hadmin : HasAdmin s tenantId)
    (h : (counted n).Knows tenantId s) :
    (weighed u n (InMemoryStore.getMemberRole s tenantId u)).Knows tenantId s := by
  intro hpassed
  by_cases hrole : InMemoryStore.getMemberRole s tenantId u = some "tenant_admin"
  · -- the target is an administrator, so at least two have been counted
    have htwo : 2 ≤ n := by
      by_contra hlt
      exact hpassed ⟨hrole, by omega⟩
    exact InMemoryStore.exists_other_of_two_le (htwo.trans h) u
  · obtain ⟨v, hv⟩ := hadmin
    refine ⟨v, ?_, hv⟩
    rintro rfl
    exact hrole hv

end RosterPhase

abbrev RosterConf := Conf registrySig RosterAnswer RosterRequest Registry RosterPhase

/-- The request has counted, has not answered and has not written. -/
def stillDeciding (th : Thread registrySig RosterAnswer RosterRequest RosterPhase) : Bool :=
  th.prog.running && th.phase.deciding

/-- The call takes the role `tenant_admin` from whoever it is about. -/
def demotes : registrySig.Call → Bool
  | .inr (.roster (.updateMemberRole _ _ role)) => role ≠ "tenant_admin"
  | .inr (.roster (.removeMember _ _)) => true
  | _ => false

/-- Whenever a demotion or a removal is about to be written, no other request is deciding. -/
def Undivided (C : RosterConf) : Label RosterRequest Occasion → Prop
  | .spawn _ => True
  | .step i _ => C.threads[i]?.any (·.aboutTo demotes) = true →
      ∀ th ∈ C.threads.eraseIdx i, stillDeciding th = false

instance (C : RosterConf) : ∀ l, Decidable (Undivided C l)
  | .spawn _ => inferInstanceAs (Decidable True)
  | .step _ _ => inferInstanceAs (Decidable (_ → _))

/-- What holds of the registry and of the requests on their way. -/
structure AdminRemains (tenantId : String) (C : RosterConf) : Prop where
  admin : HasAdmin C.state.store tenantId
  knows : ∀ th ∈ C.threads, th.prog.running → th.phase.Knows tenantId C.state.store

section Runs

variable {P : Platform} {tenantId : String} {r₀ : Registry} {C C' : RosterConf} {i : ℕ}
  {th : Thread registrySig RosterAnswer RosterRequest RosterPhase} {c : registrySig.Call}
  {k : registrySig.Answer c → RegistryHandler RosterAnswer} {o : Occasion}

theorem mem_answered_cases {th' : Thread registrySig RosterAnswer RosterRequest RosterPhase}
    (hth : C.threads[i]? = some th)
    (h : th' ∈ ((rosterServer P tenantId).answered C i th c k o).threads) :
    th'.phase = th.phase.next tenantId c (registryExec P c o C.state).1 ∨
      th' ∈ C.threads.eraseIdx i := by
  obtain ⟨j, hj⟩ := List.mem_iff_getElem?.mp h
  rw [Server.getElem?_answered hth] at hj
  split_ifs at hj with hij
  · rw [← Option.some.inj hj]
    exact .inl rfl
  · exact .inr (List.mem_eraseIdx_iff_getElem?.mpr ⟨j, hij, hj⟩)

theorem AdminRemains.kept (h : AdminRemains tenantId C) (hth : C.threads[i]? = some th)
    (hcount : InMemoryStore.countMembersByRole C.state.store tenantId "tenant_admin" ≤
      InMemoryStore.countMembersByRole (registryExec P c o C.state).2.store tenantId "tenant_admin")
    (hadmin : ∀ v, Administers C.state.store tenantId v →
      Administers (registryExec P c o C.state).2.store tenantId v)
    (hnext : (th.phase.next tenantId c (registryExec P c o C.state).1).Knows tenantId
      (registryExec P c o C.state).2.store) :
    AdminRemains tenantId ((rosterServer P tenantId).answered C i th c k o) := by
  obtain ⟨v, hv⟩ := h.admin
  refine ⟨⟨v, hadmin v hv⟩, fun th' hth' hrunning ↦ ?_⟩
  rcases mem_answered_cases hth hth' with hphase | hth'
  · rw [hphase]
    exact hnext
  · exact (h.knows th' (List.mem_of_mem_eraseIdx hth') hrunning).mono hcount hadmin

theorem AdminRemains.same (h : AdminRemains tenantId C) (hth : C.threads[i]? = some th)
    (hmembers : (registryExec P c o C.state).2.store.members = C.state.store.members)
    (hnext : (th.phase.next tenantId c (registryExec P c o C.state).1).Knows
      tenantId C.state.store) :
    AdminRemains tenantId ((rosterServer P tenantId).answered C i th c k o) := by
  have hcount (role : String) : InMemoryStore.countMembersByRole C.state.store tenantId role =
      InMemoryStore.countMembersByRole (registryExec P c o C.state).2.store tenantId role := by
    rw [InMemoryStore.countMembersByRole, InMemoryStore.countMembersByRole, hmembers]
  have hadmin (v : String) (hv : Administers C.state.store tenantId v) :
      Administers (registryExec P c o C.state).2.store tenantId v := by
    rw [Administers, InMemoryStore.getMemberRole, hmembers]
    exact hv
  exact h.kept hth (hcount _).le hadmin (hnext.mono (hcount _).le hadmin)

/-- A demotion or a removal: somebody is left, and nobody else is deciding. -/
theorem AdminRemains.taken (hth : C.threads[i]? = some th)
    (hadmin : HasAdmin (registryExec P c o C.state).2.store tenantId)
    (hothers : ∀ th ∈ C.threads.eraseIdx i, stillDeciding th = false)
    (hnext : th.phase.next tenantId c (registryExec P c o C.state).1 = .idle) :
    AdminRemains tenantId ((rosterServer P tenantId).answered C i th c k o) := by
  refine ⟨hadmin, fun th' hth' hrunning ↦ ?_⟩
  rcases mem_answered_cases hth hth' with hphase | hth'
  · rw [hphase, hnext]
    trivial
  · have hidle := hothers th' hth'
    rw [stillDeciding, hrunning, Bool.true_and] at hidle
    cases hphase : th'.phase with
    | idle => trivial
    | _ =>
      rw [hphase] at hidle
      cases hidle

theorem AdminRemains.other (h : AdminRemains tenantId C) (hth : C.threads[i]? = some th)
    (hprog : th.prog = .call c k) {uid : String} (hcleared : th.phase.cleared uid) :
    ∃ v, v ≠ uid ∧ Administers C.state.store tenantId v := by
  have hknows := h.knows th (List.mem_of_getElem? hth) (by rw [hprog]; rfl)
  cases hphase : th.phase with
  | weighed u n role =>
    rw [hphase] at hcleared hknows
    obtain ⟨rfl, hpassed⟩ := hcleared
    exact hknows hpassed
  | _ =>
    rw [hphase] at hcleared
    exact hcleared.elim

theorem registryExec_updateMemberRole (tid u role : String) (o : Occasion) (r : Registry) :
    (registryExec P (.inr (.roster (.updateMemberRole tid u role))) o r).2.store = r.store ∨
      (registryExec P (.inr (.roster (.updateMemberRole tid u role))) o r).2.store =
        InMemoryStore.updateMemberRole r.store tid u role := by
  refine registryExec_keeps (K := fun r' ↦ r'.store = r.store ∨
    r'.store = InMemoryStore.updateMemberRole r.store tid u role) (.inl rfl) ?_
  refine Registry.written_snd (r := { r with clock := o.now }) (K := fun r' ↦ r'.store = r.store ∨
    r'.store = InMemoryStore.updateMemberRole r.store tid u role) (.inl rfl) fun m r' hr' ↦ ?_
  rw [Registry.updateMemberRole] at hr'
  split_ifs at hr'
  obtain ⟨-, rfl⟩ := Prod.mk.inj (Except.ok.inj hr')
  exact .inr rfl

theorem registryExec_removeMember (tid userId : String) (o : Occasion) (r : Registry) :
    (registryExec P (.inr (.roster (.removeMember tid userId))) o r).2.store = r.store ∨
      (registryExec P (.inr (.roster (.removeMember tid userId))) o r).2.store =
        InMemoryStore.removeMember r.store tid userId :=
  registryExec_keeps (K := fun r' ↦ r'.store = r.store ∨
    r'.store = InMemoryStore.removeMember r.store tid userId) (.inl rfl) (.inr rfl)

theorem registryExec_getMemberRole {tid userId : String} {o : Occasion} {r : Registry}
    {role : Option String}
    (h : (registryExec P (.inl (.inl (.store (.getMemberRole tid userId)))) o r).1 = .ok role) :
    role = InMemoryStore.getMemberRole r.store tid userId := by
  rw [registryExec_ok h] at h
  exact Except.ok.inj (h.symm.trans (congrArg Prod.fst (P.backend.exec_read rfl fun _ ↦ rfl)))

theorem AdminRemains.quiet (h : AdminRemains tenantId C) (hth : C.threads[i]? = some th)
    (hprog : th.prog = .call c k) (hc : quietCall c) :
    AdminRemains tenantId ((rosterServer P tenantId).answered C i th c k o) := by
  have hknows := h.knows th (List.mem_of_getElem? hth) (by rw [hprog]; rfl)
  obtain ⟨d, log, time, hcalm⟩ := registryExec_quiet P hc o C.state
  refine h.same hth (by rw [hcalm]) ?_
  rw [RosterPhase.next.eq_def]
  split
  · exact hc.elim
  · rename_i n tid userId role hphase hanswer
    rw [hphase] at hknows
    split_ifs with htid
    · -- the answer is the role of the target at this moment
      subst htid
      rw [registryExec_getMemberRole hanswer]
      exact RosterPhase.knows_weighed h.admin hknows
    · exact hknows
  · exact hc.elim
  · exact hc.elim
  · exact hknows

/-- **One call of a request.** -/
theorem AdminRemains.call (h : AdminRemains tenantId C) (hcond : Undivided C (.step i o))
    (hth : C.threads[i]? = some th) (hprog : th.prog = .call c k)
    (hallowed : th.phase.allowed tenantId c) :
    AdminRemains tenantId ((rosterServer P tenantId).answered C i th c k o) := by
  have hothers (hc : demotes c = true) : ∀ th ∈ C.threads.eraseIdx i, stillDeciding th = false :=
    hcond (by rw [hth, Option.any_some, Thread.aboutTo, hprog]; exact hc)
  rw [RosterPhase.allowed.eq_def] at hallowed
  split at hallowed
  · rename_i tid userId role
    obtain ⟨rfl, hguard⟩ := hallowed
    have hstore := registryExec_updateMemberRole (P := P) tid userId role o C.state
    by_cases hrole : role = "tenant_admin"
    · subst hrole
      rcases hstore with hstore | hstore
      · exact h.same hth (by rw [hstore]) trivial
      · refine h.kept hth ?_ ?_ trivial
        · rw [hstore]
          exact InMemoryStore.countMembersByRole_le_updateMemberRole ..
        · intro v hv
          rw [hstore, Administers, InMemoryStore.getMemberRole_updateMemberRole]
          split_ifs
          · rw [hv, Option.map_some]
          · exact hv
    · obtain ⟨v, hne, hv⟩ := h.other hth hprog (hguard.resolve_left hrole)
      refine .taken hth ⟨v, ?_⟩ (hothers (decide_eq_true hrole)) rfl
      rcases hstore with hstore | hstore
      · rw [hstore]
        exact hv
      · rw [hstore, Administers, InMemoryStore.getMemberRole_updateMemberRole, if_neg hne]
        exact hv
  · rename_i tid userId
    obtain ⟨rfl, hcleared⟩ := hallowed
    obtain ⟨v, hne, hv⟩ := h.other hth hprog hcleared
    refine .taken hth ⟨v, ?_⟩ (hothers rfl) rfl
    rcases registryExec_removeMember (P := P) tid userId o C.state with hstore | hstore
    · rw [hstore]
      exact hv
    · rw [hstore, Administers, InMemoryStore.getMemberRole,
        InMemoryStore.removeMember, Dict.get?_pop,
        if_neg (fun h' ↦ hne (Prod.mk.inj h').2)]
      exact hv
  · rename_i tid role
    obtain ⟨rfl, rfl⟩ := hallowed
    have hsame : (registryExec P (.inr (.roster (.countMembersByRole tid "tenant_admin"))) o
        C.state).2.store = C.state.store :=
      registryExec_keeps (K := fun r ↦ r.store = C.state.store) rfl rfl
    refine h.same hth (by rw [hsame]) ?_
    rcases hanswer : (registryExec P (.inr (.roster (.countMembersByRole tid "tenant_admin"))) o
      C.state).1 with e | n
    · rw [RosterPhase.next.eq_def]
      have hknows := h.knows th (List.mem_of_getElem? hth) (by rw [hprog]; rfl)
      split <;> first | exact hknows | trivial
    · have hexec := registryExec_ok hanswer
      rw [hexec] at hanswer
      exact (Except.ok.inj hanswer).ge
  · exact h.quiet hth hprog hallowed

/-- **The last administrator survives** every run in which no demotion or removal is written while
another request stands between its count and its write. -/
theorem last_admin_survives {ls : List (Label RosterRequest Occasion)}
    (hadmin : HasAdmin r₀.store tenantId)
    (hcond : (rosterServer P tenantId).Along Undivided ls ⟨r₀, []⟩)
    (hrun : (rosterServer P tenantId).run ls ⟨r₀, []⟩ = some C) :
    HasAdmin C.state.store tenantId := by
  refine (Server.disciplined_invariant_along (P := AdminRemains tenantId)
    (fun _ ↦ serveRoster_wp _) ?_ ?_ ⟨hadmin, fun _ hth ↦ absurd hth List.not_mem_nil⟩
    (Server.disciplined_nil _ r₀) hcond hrun).1.admin
  · intro C req h _
    refine ⟨h.admin, fun th hth hrunning ↦ ?_⟩
    rcases List.mem_append.mp hth with hth | hth
    · exact h.knows th hth hrunning
    · rw [List.mem_singleton.mp hth]
      trivial
  · intro C i th c k o h _ hc hth hprog hallowed _
    exact ⟨trivial, h.call hc hth hprog hallowed⟩

end Runs

/-! ## A run, and a race -/

namespace Sample

def platform : Platform where
  auth := passwordService
  backend := .inMemory
  lower := asciiLower
  uuidOf text := if text.length = 36 then some text else none
  encryptSecret plaintext nonce := nonce ++ plaintext
  cacheOn := false
  registrationEnabled := true
  registrationDefaultTenant := "community"
  emailVerifyTtlSeconds := 86400

def dbPlatform : Platform := { platform with backend := .postgres declared }

def twoAdmins : Registry :=
  { store := { store with
      users := Dict.set (Dict.set ∅ "usr_ann" holder) "usr_bob" bob
      members := Dict.set (Dict.set ∅ ("acme", "usr_ann") ⟨"tenant_admin"⟩) ("acme", "usr_bob")
        ⟨"tenant_admin"⟩ }
    clock := 1000, minted := [], families := [] }

def bobAdminHeaders : Headers :=
  ⟨"acme", some (encodeToken service.keyRing (issuedClaims service.issuer service.audience
    ⟨"usr_bob", "acme", "tenant_admin", roleScopes "tenant_admin", 28800, .access⟩ 1000 "b7"))⟩

def annRemovesBob : RosterRequest := .removeMember annHeaders "usr_bob"

def bobRemovesAnn : RosterRequest := .removeMember bobAdminHeaders "usr_ann"

def callsOf (i n : ℕ) : List (Label RosterRequest Occasion) :=
  List.replicate n (.step i { now := 1100, draw := "", serial := "" })

def inOrder : List (Label RosterRequest Occasion) :=
  .spawn annRemovesBob :: callsOf 0 9 ++ .spawn bobRemovesAnn :: callsOf 1 5

def headToHead : List (Label RosterRequest Occasion) :=
  [.spawn annRemovesBob, .spawn bobRemovesAnn] ++ callsOf 0 7 ++ callsOf 1 7 ++ callsOf 0 2 ++
    callsOf 1 2

end Sample

open Sample in
theorem last_admin_survives_in_order :
    ∃ C, (rosterServer platform "acme").run inOrder ⟨twoAdmins, []⟩ = some C ∧
      C.state.store.members.keys = [("acme", "usr_ann")] ∧ HasAdmin C.state.store "acme" := by
  have heval : ∃ C ∈ (rosterServer platform "acme").run inOrder ⟨twoAdmins, []⟩,
      C.state.store.members.keys = [("acme", "usr_ann")] := by
    decide +kernel
  have hcond : (rosterServer platform "acme").Along Undivided inOrder ⟨twoAdmins, []⟩ := by
    decide +kernel
  have hadmin : HasAdmin twoAdmins.store "acme" := ⟨"usr_ann", by decide⟩
  obtain ⟨C, hC, hkeys⟩ := heval
  exact ⟨C, hC, hkeys, last_admin_survives hadmin hcond hC⟩

open Sample in
/-- Two administrators that remove each other at the same time leave the tenant without one; both
are told that it worked. -/
theorem last_admin_lost : HasAdmin twoAdmins.store "acme" ∧
      ∃ C, (rosterServer dbPlatform "acme").run headToHead ⟨twoAdmins, []⟩ = some C ∧
        (∀ th ∈ C.threads, th.prog.returned = some .removed) ∧ ¬ HasAdmin C.state.store "acme" := by
  have heval : ∃ C ∈ (rosterServer dbPlatform "acme").run headToHead ⟨twoAdmins, []⟩,
      (∀ th ∈ C.threads, th.prog.returned = some .removed) ∧
        C.state.store.members.entries = [] := by
    decide +kernel
  refine ⟨⟨"usr_ann", by decide⟩, ?_⟩
  obtain ⟨C, hC, hremoved, hempty⟩ := heval
  refine ⟨C, hC, hremoved, ?_⟩
  rintro ⟨userId, hrole⟩
  obtain ⟨m, hm, -⟩ := InMemoryStore.getMemberRole_eq_some_iff.mp hrole
  rw [hempty] at hm
  exact List.not_mem_nil hm

end FusionIdentity
