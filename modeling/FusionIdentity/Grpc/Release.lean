import FusionIdentity.Grpc.Footprint
import FusionIdentity.Grpc.Requests

/-!
# Releasing leases

Three paths take a lease out of its set: `ReleaseLease`, `ReportUsage`, and `AuthorizeAndAcquire`
itself when the rate limit refuses a request that already has its lease. The script that removes the
lease is one step, the log entry another. The first two paths write the entry only if the script has
found the lease, the third in any case, so a lease that was released in the meantime is logged
twice.

An observer notes which leases come into a set and go, and what is handed to the log; `LeasesSound`
is about these notes. A request is followed by its `LeaseStage`: in the stages `leased`, `returning`
and `freed` it may still log the release of its lease. If a lease is released only when no other
request that was granted it is running, at most one request is ever in one of these stages for it.
-/

namespace FusionIdentity

open Foundation Foundation.Prog

/-! ## What an observer sees -/

def Plane.leaseIds (w : Plane) (clock : Time) (tenantId : String) : List String :=
  (w.redis.zsets.zset clock (leasesKey tenantId)).keys

namespace PlaneCall

/-- The tenant whose lease set a call may change. -/
def leaseTenant? : PlaneCall → Option String
  | acquire tenantId _ => some tenantId
  | release tenantId _ => some tenantId
  | _ => none

def draws (i : Reading) : PlaneCall → List String
  | acquire _ _ => [i.draw]
  | _ => []

def logs : PlaneCall → List LeaseEvent
  | logLease e => [e]
  | _ => []

/-- The leases, with their tenant, that are in `w'` and not in `w`. -/
def newLeases (c : PlaneCall) (clock : Time) (w w' : Plane) : List (String × String) :=
  match c.leaseTenant? with
  | some t => ((w'.leaseIds clock t).filter (· ∉ w.leaseIds clock t)).map (t, ·)
  | none => []

theorem mem_newLeases {c : PlaneCall} {clock : Time} {w w' : Plane} {t l : String} :
    (t, l) ∈ c.newLeases clock w w' ↔ c.leaseTenant? = some t ∧
      l ∈ w'.leaseIds clock t ∧ l ∉ w.leaseIds clock t := by
  rw [newLeases]
  rcases c.leaseTenant? with _ | t₀
  · simp
  · by_cases ht : t₀ = t
    · subst ht
      simp
    · simp [ht]

theorem nodup_newLeases (c : PlaneCall) (clock : Time) (w w' : Plane) :
    (c.newLeases clock w w').Nodup := by
  rw [newLeases]
  split
  · exact ((Dict.nodup _).filter _).map (Prod.mk_right_injective _)
  · exact List.nodup_nil

end PlaneCall

/-- The plane and the notes of an observer: the suffixes drawn, the leases that came into a set and
those that went, each with its tenant, and everything handed to the lease log. -/
structure LeaseWorld where
  plane : Plane
  clock : Time
  drawn : List String := []
  granted : List (String × String) := []
  removed : List (String × String) := []
  logged : List LeaseEvent := []

/-- A call, and what the observer notes about it. -/
def LeaseWorld.exec (b : Backend) (M : ConcurrencyManager) (i : Reading) (c : PlaneCall)
    (w : LeaseWorld) : Except PlaneExn c.Res × LeaseWorld :=
  let out := w.plane.exec b M i c
  (out.1, {
    plane := out.2
    clock := i.clock
    drawn := c.draws i ++ w.drawn
    granted := c.newLeases i.clock w.plane out.2 ++ w.granted
    removed := c.newLeases i.clock out.2 w.plane ++ w.removed
    logged := c.logs ++ w.logged })

/-- The leases whose release has been logged, with repetitions. -/
def LeaseWorld.released (w : LeaseWorld) : List String :=
  (w.logged.filter (·.action = "release")).map (·.leaseId)

/-! ## What a call does to the lease sets -/

section Effects

variable {b : Backend} {M : ConcurrencyManager} {i : Reading} {c : PlaneCall} {w : Plane}
  {t leaseId : String}

/-- A call for another tenant, or for no lease at all, leaves the lease set of `t` alone, at every
time. -/
theorem find_leases_exec (hc : c.leaseTenant? ≠ some t) (time : Time) :
    (w.exec b M i c).2.redis.zsets.find time (leasesKey t) =
      w.redis.zsets.find time (leasesKey t) := by
  have hkey : c.zset? ≠ some (leasesKey t) := by
    cases c with
    | acquire | release =>
      exact fun h ↦ hc (congrArg some (leasesKey_injective (Option.some.inj h)))
    | checkRpm t₀ limit => exact fun h ↦ rpmKey_ne_leasesKey t₀ t (Option.some.inj h)
    | _ => exact fun h ↦ Option.some_ne_none _ h.symm
  exact Plane.exec_keeps (K := fun w' : Plane ↦ w'.redis.zsets.find time (leasesKey t) =
    w.redis.zsets.find time (leasesKey t)) rfl (find_zsets_effect hkey time)

theorem leaseIds_exec_of_ne (hc : c.leaseTenant? ≠ some t) (time : Time) :
    (w.exec b M i c).2.leaseIds time t = w.leaseIds time t :=
  congrArg Dict.keys (Keyspace.zset_congr (find_leases_exec hc time))

theorem mem_leaseIds_exec (h : leaseId ∈ (w.exec b M i c).2.leaseIds i.clock t) :
    leaseId ∈ w.leaseIds i.clock t ∨ (∃ m, c = .acquire t m) ∧ leaseId = leaseIdOf t i.draw := by
  by_cases hc : c.leaseTenant? = some t
  swap
  · exact .inl (by rwa [leaseIds_exec_of_ne hc] at h)
  revert h
  refine Plane.exec_keeps (K := fun w' ↦ leaseId ∈ w'.leaseIds i.clock t →
    leaseId ∈ w.leaseIds i.clock t ∨ (∃ m, c = .acquire t m) ∧ leaseId = leaseIdOf t i.draw)
    .inl fun h ↦ ?_
  obtain ⟨s, hs⟩ := Dict.mem_keys_iff.mp h
  cases c with
  | acquire t₀ m =>
    obtain rfl := Option.some.inj hc
    -- what the reaper has left was there before
    have hreaped {s : ℤ} (hs : ((w.redis.reap i.clock (leasesKey t₀) i.now).zsets.zset i.clock
        (leasesKey t₀)).get? leaseId = some s) : leaseId ∈ w.leaseIds i.clock t₀ := by
      rw [zset_reap] at hs
      exact Dict.mem_keys_iff.mpr ⟨s, (SortedSet.get?_removeRange_eq_some_iff.mp hs).1⟩
    obtain ⟨n, -, hzsets⟩ := w.effect_acquire b M i t₀ m
    rw [hzsets] at hs
    split_ifs at hs
    · exact .inl (hreaped hs)
    · rw [zset_granting, Dict.get?_set] at hs
      split_ifs at hs with hid
      · exact .inr ⟨⟨m, rfl⟩, hid⟩
      · exact .inl (hreaped hs)
  | release t₀ id =>
    obtain rfl := Option.some.inj hc
    change ((w.redis.releaseScript i.clock (leasesKey t₀) leasePrefix id).2.zsets.zset i.clock
      (leasesKey t₀)).get? leaseId = some s at hs
    rw [get?_release] at hs
    split_ifs at hs
    exact .inl (Dict.mem_keys_iff.mpr ⟨s, hs⟩)
  | _ => cases hc

theorem mem_leaseIds_acquire {m n : ℤ}
    (h : (w.exec b M i (.acquire t m)).1 = .ok (leaseId, n)) (hn : n ≠ 0) :
    leaseId = leaseIdOf t i.draw ∧
      leaseId ∈ (w.exec b M i (.acquire t m)).2.leaseIds i.clock t := by
  have hexec := Plane.exec_of_ok h
  obtain ⟨n', hanswer, hzsets⟩ := w.effect_acquire b M i t m
  rw [hexec, hanswer] at h
  obtain ⟨rfl, rfl⟩ := Prod.mk.inj (Except.ok.inj h)
  refine ⟨rfl, Dict.mem_keys_iff.mpr ⟨i.now + M.leaseTtl, ?_⟩⟩
  rw [hexec, hzsets, if_neg hn, zset_granting, Dict.get?_set_self]

theorem not_mem_leaseIds_release {n : ℤ} (h : (w.exec b M i (.release t leaseId)).1 = .ok n) :
    leaseId ∉ (w.exec b M i (.release t leaseId)).2.leaseIds i.clock t := by
  rw [Plane.exec_of_ok h]
  refine Dict.get?_eq_none_iff.mp ?_
  exact (get?_release leaseId).trans (if_pos rfl)

/-- A release that says it has found the lease has found it, and one slot of the tenant is free. -/
theorem release_frees {n : ℤ} (h : (w.exec b M i (.release t leaseId)).1 = .ok n) (hn : 0 ≤ n) :
    leaseId ∈ w.leaseIds i.clock t ∧
      (w.exec b M i (.release t leaseId)).2.redis.zcard i.clock (leasesKey t) + 1 =
        w.redis.zcard i.clock (leasesKey t) := by
  have hexec := Plane.exec_of_ok h
  rw [hexec] at h ⊢
  have hn' : 0 ≤ (w.redis.releaseScript i.clock (leasesKey t) leasePrefix leaseId).1 :=
    Except.ok.inj h ▸ hn
  have hmem : leaseId ∈ w.leaseIds i.clock t := by
    by_contra hnot
    rw [Redis.releaseScript, Dict.get?_eq_none_iff.mpr hnot, Option.isNone_none, if_pos rfl] at hn'
    cases hn'
  refine ⟨hmem, ?_⟩
  have hsome : ¬ ((w.redis.zsets.zset i.clock (leasesKey t)).get? leaseId).isNone := by
    rw [Option.isNone_iff_eq_none, Dict.get?_eq_none_iff]
    exact not_not.mpr hmem
  rw [Plane.effect, Redis.releaseScript, if_neg hsome, Redis.zcard, Redis.zcard]
  dsimp only
  rw [Keyspace.zset_zalter]
  exact Dict.card_pop_of_mem hmem

theorem release_of_not_mem (h : leaseId ∉ w.leaseIds i.clock t) :
    (w.exec b M i (.release t leaseId)).2 = w := by
  refine Plane.exec_keeps (K := fun w' ↦ w' = w) rfl ?_
  rw [Plane.effect, Redis.releaseScript, Dict.get?_eq_none_iff.mpr h]
  rfl

theorem mem_leaseIds_of_later {clock clock' : Time} (hclock : clock ≤ clock')
    (h : leaseId ∈ w.leaseIds clock' t) : leaseId ∈ w.leaseIds clock t := by
  obtain ⟨s, hs⟩ := Dict.mem_keys_iff.mp h
  exact Dict.mem_keys_iff.mpr ⟨s, LeasesTimed.get?_of_later hclock hs⟩

end Effects

/-! ## Stages -/

/-- How far a request has come with a lease. -/
inductive LeaseStage
  /-- It has been granted no lease. -/
  | idle
  /-- It has been granted the lease. -/
  | leased (tenantId leaseId : String)
  /-- It has given the lease back and is about to log it. -/
  | returning (tenantId leaseId : String)
  /-- It is told to release the lease. -/
  | naming (tenantId leaseId : String)
  /-- It has released the lease and is about to log it. -/
  | freed (tenantId leaseId : String)
  | done
  deriving DecidableEq

namespace LeaseStage

def allowed : LeaseStage → PlaneCall → Prop
  | t, .acquire _ _ => t = idle
  | t, .release tenantId leaseId => t = leased tenantId leaseId ∨ t = naming tenantId leaseId
  | t, .logLease e => t = leased e.tenantId e.leaseId ∧ e.action ≠ "release" ∨
      t = returning e.tenantId e.leaseId ∨ t = freed e.tenantId e.leaseId
  | _, _ => True

def next : LeaseStage → (c : PlaneCall) → Except PlaneExn c.Res → LeaseStage
  | idle, .acquire tenantId _, .ok (leaseId, n) => if n = 0 then idle else leased tenantId leaseId
  | leased tenantId leaseId, .release _ _, .ok _ => returning tenantId leaseId
  | naming tenantId leaseId, .release _ _, .ok n => if 0 ≤ n then freed tenantId leaseId else done
  | returning _ _, .logLease _, _ => done
  | freed _ _, .logLease _, _ => done
  | t, _, _ => t

/-- The lease, with its tenant, whose release the request may still log. -/
def lease? : LeaseStage → Option (String × String)
  | leased tenantId leaseId => some (tenantId, leaseId)
  | returning tenantId leaseId => some (tenantId, leaseId)
  | freed tenantId leaseId => some (tenantId, leaseId)
  | _ => none

def past? : LeaseStage → Option (String × String)
  | returning tenantId leaseId => some (tenantId, leaseId)
  | freed tenantId leaseId => some (tenantId, leaseId)
  | _ => none

/-- The id of the lease that the request has been granted and not given back. -/
def holding? : LeaseStage → Option String
  | leased _ leaseId => some leaseId
  | _ => none

end LeaseStage

def GrpcRequest.target? : GrpcRequest → Option (String × String)
  | authorize _ => none
  | releaseLease req => some (req.tenantId, req.leaseId)
  | reportUsage req => some (req.tenantId, req.leaseId)

def GrpcRequest.stage (req : GrpcRequest) : LeaseStage :=
  match req.target? with
  | none => .idle
  | some (tenantId, leaseId) => .naming tenantId leaseId

/-- Any number of requests of the gRPC plane. Redis' clock does not run backwards, and a suffix has
not been drawn before. -/
def leaseTraffic (S : IdentityServicer) (b : Backend) :
    Server planeSig GrpcAnswer GrpcRequest LeaseWorld Reading LeaseStage where
  prog := S.serveGrpc
  exec c i w := w.exec b S.manager i c
  admissible w c i := w.clock ≤ i.clock ∧ ∀ d ∈ c.draws i, SuffixOk d ∧ d ∉ w.drawn
  startable _ _ := True
  discipline := ⟨LeaseStage.allowed, fun _ _ _ ↦ True, LeaseStage.next⟩
  start := GrpcRequest.stage
  decAdmissible _ _ _ := inferInstance
  decStartable _ _ := inferInstance

/-! ## Every request keeps to its stages -/

section Discipline

/-- The calls that neither touch a lease set nor the lease log. -/
def PlaneCall.SparesLeases : PlaneCall → Prop
  | acquire _ _ => False
  | release _ _ => False
  | logLease _ => False
  | _ => True

variable {S : IdentityServicer} {b : Backend}

theorem LeaseStage.frame {c : PlaneCall} (hc : c.SparesLeases) (t : LeaseStage) :
    (leaseTraffic S b).discipline.allowed t c ∧
      ∀ r, (leaseTraffic S b).discipline.next t c r = t := by
  cases c with
  | acquire | release | logLease => exact hc.elim
  | _ => exact ⟨trivial, fun r ↦ by cases t <;> rfl⟩

theorem sparing_bind {α β : Type} {p : PlaneHandler α} {f : α → PlaneHandler β} {t : LeaseStage}
    (hp : p.Only PlaneCall.SparesLeases)
    (hf : ∀ a, (f a).wp (leaseTraffic S b).discipline (fun _ _ ↦ True) t) :
    (p >>= f).wp (leaseTraffic S b).discipline (fun _ _ ↦ True) t :=
  hp.wp_frame_bind (fun _ hc ↦ LeaseStage.frame hc t) hf fun _ ↦ trivial

theorem answered_wp {α β : Type} {p : PlaneHandler α} {f : α → β} {t : LeaseStage}
    (hp : p.wp (leaseTraffic S b).discipline (fun _ _ ↦ True) t) :
    (p >>= fun a ↦ ret (f a)).wp (leaseTraffic S b).discipline (fun _ _ ↦ True) t := by
  rw [wp_bind]
  exact wp_mono hp fun r _ _ ↦ by cases r <;> trivial

theorem ofExcept_wp {α : Type} (x : Except PlaneExn α) {t : LeaseStage} :
    (ofExcept x : PlaneHandler α).wp (leaseTraffic S b).discipline (fun _ _ ↦ True) t := by
  cases x <;> trivial

theorem await_only {c : PlaneCall} (hc : c.SparesLeases) : (await c).Only PlaneCall.SparesLeases :=
  .perform hc

theorem lookup_only (apiKey : String) : (S.lookup apiKey).Only PlaneCall.SparesLeases := by
  have hcached : (S.cachedInfo apiKey).Only PlaneCall.SparesLeases := by
    rw [IdentityServicer.cachedInfo]
    split_ifs
    · refine .bind (.outcome (.calls trivial fun found ↦ ?_)) fun r ↦ ?_
      · rcases found with _ | info | _
        · exact .ret _
        · exact .ret _
        · exact .calls trivial fun _ ↦ .ret _
      · cases r <;> exact .ret _
    · exact .ret _
  have hremember (info : TenantInfo) : (S.remember apiKey info).Only PlaneCall.SparesLeases := by
    rw [IdentityServicer.remember]
    split_ifs
    · exact .bind (.outcome (await_only trivial)) fun _ ↦ .ret _
    · exact .ret _
  have hstored : (S.storedInfo apiKey).Only PlaneCall.SparesLeases := by
    refine .calls trivial fun found ↦ ?_
    rcases found with _ | key
    · exact .ret _
    · refine .calls trivial fun tenant ↦ .calls trivial fun quota ↦ ?_
      rcases tenant with _ | t
      · exact .ret _
      · exact .bind (hremember _) fun _ ↦ .ret _
  refine .bind hcached fun found ↦ ?_
  rcases found with _ | info
  · exact hstored
  · exact .ret _

theorem quotaGate_sparesLeases (info : TenantInfo) :
    (S.quotaGate info).Only PlaneCall.SparesLeases := by
  refine (IdentityServicer.quotaGate_reserves info).mono ?_
  rintro c ⟨l, rfl⟩
  trivial

theorem giveBack_wp (info : TenantInfo) (l : String) :
    (giveBack info l).wp (leaseTraffic S b).discipline (fun _ _ ↦ True)
      (.leased info.tenantId l) := by
  rw [giveBack, await, wp_perform_bind]
  refine ⟨.inl rfl, fun n _ ↦ ?_, fun _ _ ↦ trivial⟩
  change Prog.wp _ _ _ (LeaseStage.returning info.tenantId l)
  rw [await, wp_perform_bind]
  exact ⟨.inr (.inl rfl), fun _ _ ↦ trivial, fun _ _ ↦ trivial⟩

theorem settle_wp (info : TenantInfo) (l : String) (remaining : ℤ) :
    (S.settle info l remaining).wp (leaseTraffic S b).discipline (fun _ _ ↦ True)
      (.leased info.tenantId l) := by
  rw [IdentityServicer.settle, await, wp_perform_bind]
  refine ⟨.inl ⟨rfl, by dsimp only; decide⟩, fun _ _ ↦ ?_, fun _ _ ↦ trivial⟩
  change Prog.wp _ _ _ (LeaseStage.leased info.tenantId l)
  split_ifs
  · rw [await, wp_perform_bind]
    refine ⟨trivial, fun ok _ ↦ ?_, fun _ _ ↦ trivial⟩
    change Prog.wp _ _ _ (LeaseStage.leased info.tenantId l)
    rcases ok with ⟨_ | _, _⟩
    · exact giveBack_wp info l
    · exact ofExcept_wp _
  · exact ofExcept_wp _

theorem acquireAndSettle_wp (info : TenantInfo) (remaining : ℤ) :
    (S.acquireAndSettle info remaining).wp (leaseTraffic S b).discipline
    (fun _ _ ↦ True) .idle := by
  rw [IdentityServicer.acquireAndSettle, tryAcquire]
  split_ifs
  · trivial
  · rw [bind_assoc, await, wp_perform_bind]
    refine ⟨rfl, ?_, fun _ _ ↦ trivial⟩
    rintro ⟨leaseId, n⟩ _
    change Prog.wp _ (ret (acquired leaseId n) >>= _) _
      (if n = 0 then LeaseStage.idle else .leased info.tenantId leaseId)
    rw [ret_bind, acquired]
    split_ifs
    · trivial
    · exact settle_wp info leaseId remaining

theorem releaseAndLog_wp (tn l reason : String) :
    (releaseAndLog tn l reason).wp (leaseTraffic S b).discipline (fun _ _ ↦ True)
      (.naming tn l) := by
  rw [releaseAndLog, await, wp_perform_bind]
  refine ⟨.inr rfl, fun n _ ↦ ?_, fun _ _ ↦ trivial⟩
  change Prog.wp _ _ _ (if 0 ≤ n then LeaseStage.freed tn l else .done)
  split_ifs
  · rw [await, wp_perform_bind]
    exact ⟨.inr (.inr rfl), fun _ _ ↦ trivial, fun _ _ ↦ trivial⟩
  · trivial

theorem reportUsage_wp (req : ReportUsageRequest) :
    (S.reportUsage req).wp (leaseTraffic S b).discipline (fun _ _ ↦ True)
      (.naming req.tenantId req.leaseId) := by
  rw [IdentityServicer.reportUsage]
  split
  · trivial
  have hbook : req.book.Only PlaneCall.SparesLeases := by
    rw [ReportUsageRequest.book]
    split
    · exact .bind (.outcome (await_only trivial)) fun r ↦ by cases r <;> exact .ret _
    · exact .ret _
  refine sparing_bind hbook fun ledgerOk ↦ ?_
  refine sparing_bind (.doWhen _ (.calls trivial fun _ ↦ .ret _)) fun _ ↦ ?_
  rw [wp_bind]
  refine wp_mono (Q := fun _ _ ↦ True) ?_ ?_
  · rw [ReportUsageRequest.releaseIfAsked, doWhen]
    split_ifs
    · exact answered_wp (releaseAndLog_wp _ _ _)
    · trivial
  · rintro (e | u) t -
    · trivial
    refine sparing_bind (await_only trivial) fun q ↦ ?_
    dsimp only
    split
    · exact sparing_bind (await_only trivial) fun _ ↦ ofExcept_wp _
    · exact ofExcept_wp _

/-- **Every request keeps to its stages.** -/
theorem serveGrpc_wp (req : GrpcRequest) :
    (S.serveGrpc req).wp (leaseTraffic S b).discipline (fun _ _ ↦ True) req.stage := by
  cases req with
  | authorize req =>
    change Prog.wp _ (S.authorizeAndAcquire req >>= _) _ LeaseStage.idle
    rw [IdentityServicer.authorizeAndAcquire, bind_assoc, wp_bind, wp_outcome,
      IdentityServicer.authorize]
    dsimp only
    split_ifs
    · trivial
    rw [wp_bind]
    refine wp_mono ((lookup_only _).wp_frame fun c hc ↦ LeaseStage.frame hc _) ?_
    rintro (e | refusal | info) t rfl
    · trivial
    · trivial
    change Prog.wp _ (S.authorizeOn req info) _ _
    rw [IdentityServicer.authorizeOn]
    rcases gate req info with _ | refusal
    swap
    · trivial
    change Prog.wp _ (S.quotaGate info >>= _) _ _
    rw [wp_bind]
    refine wp_mono ((quotaGate_sparesLeases info).wp_frame fun c hc ↦ LeaseStage.frame hc _) ?_
    rintro (e | refusal | remaining) t rfl
    · trivial
    · trivial
    · refine wp_mono (acquireAndSettle_wp info remaining) ?_
      rintro (e | resp) t - <;> trivial
  | releaseLease req =>
    refine answered_wp (p := releaseLease req) ?_
    rw [releaseLease]
    split
    · trivial
    · exact answered_wp (releaseAndLog_wp _ _ _)
  | reportUsage req => exact answered_wp (reportUsage_wp req)

end Discipline

/-! ## The notes of the observer -/

/-- A lease in a set has been granted and not been removed, an id tells its tenant, and no lease has
been removed twice. -/
structure LeasesSound (w : LeaseWorld) : Prop where
  present : ∀ {t leaseId}, leaseId ∈ w.plane.leaseIds w.clock t →
    (t, leaseId) ∈ w.granted ∧ (t, leaseId) ∉ w.removed
  drawn : ∀ {t leaseId}, (t, leaseId) ∈ w.granted →
    ∃ d ∈ w.drawn, SuffixOk d ∧ leaseId = leaseIdOf t d
  removed : ∀ p ∈ w.removed, p ∈ w.granted
  once : w.removed.Nodup

namespace LeasesSound

variable {S : IdentityServicer} {b : Backend} {i : Reading} {c : PlaneCall} {w : LeaseWorld}
  {t u leaseId : String}

theorem owner (h : LeasesSound w) (ht : (t, leaseId) ∈ w.granted) (hu : (u, leaseId) ∈ w.granted) :
    t = u := by
  obtain ⟨d, -, hd, hid⟩ := h.drawn ht
  obtain ⟨d', -, hd', hid'⟩ := h.drawn hu
  exact (leaseIdOf_inj hd hd' (hid.symm.trans hid')).1

theorem fresh (h : LeasesSound w) (ha : (leaseTraffic S b).admissible w c i) {m : ℤ}
    (hc : c = .acquire t m) : (u, leaseIdOf t i.draw) ∉ w.granted := by
  subst hc
  obtain ⟨hok, hnew⟩ := ha.2 i.draw (List.mem_singleton_self _)
  intro hu
  obtain ⟨d, hd, hdok, hid⟩ := h.drawn hu
  obtain ⟨-, rfl⟩ := leaseIdOf_inj hok hdok hid
  exact hnew hd

theorem present_now (h : LeasesSound w) (ha : (leaseTraffic S b).admissible w c i)
    (hmem : leaseId ∈ w.plane.leaseIds i.clock t) :
    (t, leaseId) ∈ w.granted ∧ (t, leaseId) ∉ w.removed :=
  h.present (mem_leaseIds_of_later ha.1 hmem)

/-- A granted lease that is in no set does not come back. -/
theorem stays_out (h : LeasesSound w) (ha : (leaseTraffic S b).admissible w c i)
    (hgranted : (t, leaseId) ∈ w.granted) (hout : leaseId ∉ w.plane.leaseIds w.clock t) :
    leaseId ∉ (w.exec b S.manager i c).2.plane.leaseIds i.clock t := by
  intro hmem
  rcases mem_leaseIds_exec hmem with hold | ⟨⟨m, hc⟩, rfl⟩
  · exact hout (mem_leaseIds_of_later ha.1 hold)
  · exact h.fresh ha hc hgranted

/-- **The step lemma** of the notes. -/
theorem exec (h : LeasesSound w) (ha : (leaseTraffic S b).admissible w c i) :
    LeasesSound (w.exec b S.manager i c).2 := by
  refine ⟨fun {t leaseId} hmem ↦ ?_, fun {t leaseId} hmem ↦ ?_, ?_, ?_⟩
  · have hkept : (t, leaseId) ∉ c.newLeases i.clock (w.plane.exec b S.manager i c).2 w.plane :=
      fun hgone ↦ (PlaneCall.mem_newLeases.mp hgone).2.2 hmem
    by_cases hold : leaseId ∈ w.plane.leaseIds i.clock t
    · obtain ⟨hgranted, hnot⟩ := h.present_now ha hold
      exact ⟨List.mem_append_right _ hgranted,
        fun hgone ↦ (List.mem_append.mp hgone).elim hkept hnot⟩
    · obtain ⟨⟨m, hc⟩, rfl⟩ := (mem_leaseIds_exec hmem).resolve_left hold
      refine ⟨List.mem_append_left _ (PlaneCall.mem_newLeases.mpr ⟨by rw [hc]; rfl, hmem, hold⟩),
        fun hgone ↦ (List.mem_append.mp hgone).elim hkept fun hold ↦ ?_⟩
      exact h.fresh ha hc (h.removed _ hold)
  · rcases List.mem_append.mp hmem with hnew | hold
    · obtain ⟨-, hin, hout⟩ := PlaneCall.mem_newLeases.mp hnew
      obtain ⟨⟨m, hc⟩, rfl⟩ := (mem_leaseIds_exec hin).resolve_left hout
      have hdraw : i.draw ∈ c.draws i := by
        rw [hc]
        exact List.mem_singleton_self _
      exact ⟨i.draw, List.mem_append_left _ hdraw, (ha.2 _ hdraw).1, rfl⟩
    · obtain ⟨d, hd, hok⟩ := h.drawn hold
      exact ⟨d, List.mem_append_right _ hd, hok⟩
  · rintro ⟨t, leaseId⟩ hp
    refine List.mem_append_right _ ?_
    rcases List.mem_append.mp hp with hgone | hgone
    · exact (h.present_now ha (PlaneCall.mem_newLeases.mp hgone).2.1).1
    · exact h.removed _ hgone
  · refine List.Nodup.append (c.nodup_newLeases _ _ _) h.once ?_
    rintro ⟨t, leaseId⟩ hgone hold
    exact (h.present_now ha (PlaneCall.mem_newLeases.mp hgone).2.1).2 hold

end LeasesSound

/-! ## What a call does to the stage of its request -/

/-- A request that names a lease does nothing but release it. -/
def LeaseStage.Tied (req : GrpcRequest) (t : LeaseStage) : Prop :=
  ∀ tenantId leaseId, req.target? = some (tenantId, leaseId) →
    t = naming tenantId leaseId ∨ t = freed tenantId leaseId ∨ t = done

section Stages

variable {b : Backend} {M : ConcurrencyManager} {i : Reading} {c : PlaneCall} {w : Plane}
  {t : LeaseStage} {u leaseId : String}

theorem LeaseStage.Tied.next {req : GrpcRequest} (h : t.Tied req) (r : Except PlaneExn c.Res) :
    (t.next c r).Tied req := by
  intro u leaseId hreq
  rcases h u leaseId hreq with rfl | rfl | rfl
  · cases c with
    | release u' leaseId' =>
      rcases r with e | n
      · exact .inl rfl
      · have hnext : (naming u leaseId).next (.release u' leaseId') (.ok n) =
            if 0 ≤ n then freed u leaseId else done := rfl
        rw [hnext]
        split_ifs
        · exact .inr (.inl rfl)
        · exact .inr (.inr rfl)
    | _ => exact .inl rfl
  · cases c with
    | logLease e => exact .inr (.inr rfl)
    | _ => exact .inr (.inl rfl)
  · cases c <;> exact .inr (.inr rfl)

/-- How a request comes to a lease whose release it may log: it had it, it is granted it now, or it
finds it in the set and takes it out. -/
theorem lease?_next (hc : t.allowed c)
    (h : (t.next c (w.exec b M i c).1).lease? = some (u, leaseId)) : t.lease? = some (u, leaseId) ∨
      ((∃ m, c = .acquire u m) ∧ leaseId = leaseIdOf u i.draw ∧
        leaseId ∈ (w.exec b M i c).2.leaseIds i.clock u) ∨
      (c = .release u leaseId ∧ leaseId ∈ w.leaseIds i.clock u) := by
  unfold LeaseStage.next at h
  split at h
  · rename_i u' m leaseId' n hr
    split_ifs at h with hn
    · cases h
    · obtain ⟨rfl, rfl⟩ := Prod.mk.inj (Option.some.inj h)
      exact .inr (.inl ⟨⟨m, rfl⟩, mem_leaseIds_acquire hr hn⟩)
  · exact .inl h
  · rename_i n hr
    split_ifs at h with hn
    · obtain ⟨rfl, rfl⟩ := Prod.mk.inj (Option.some.inj h)
      obtain ⟨rfl, rfl⟩ := LeaseStage.naming.inj (hc.resolve_left nofun)
      exact .inr (.inr ⟨rfl, (release_frees hr hn).1⟩)
    · cases h
  · cases h
  · cases h
  · exact .inl h

theorem past?_next (hc : t.allowed c)
    (h : (t.next c (w.exec b M i c).1).past? = some (u, leaseId)) :
    t.past? = some (u, leaseId) ∨ leaseId ∉ (w.exec b M i c).2.leaseIds i.clock u := by
  unfold LeaseStage.next at h
  split at h
  · split_ifs at h <;> cases h
  · rename_i n hr
    obtain ⟨rfl, rfl⟩ := Prod.mk.inj (Option.some.inj h)
    obtain ⟨rfl, rfl⟩ := LeaseStage.leased.inj (hc.resolve_right nofun)
    exact .inr (not_mem_leaseIds_release hr)
  · rename_i n hr
    split_ifs at h
    · obtain ⟨rfl, rfl⟩ := Prod.mk.inj (Option.some.inj h)
      obtain ⟨rfl, rfl⟩ := LeaseStage.naming.inj (hc.resolve_left nofun)
      exact .inr (not_mem_leaseIds_release hr)
    · cases h
  · cases h
  · cases h
  · exact .inl h

/-- What is logged as released is the lease that the request has taken out of its set, and this is
the last that it does about the lease. -/
theorem logs_release {e : LeaseEvent} (hc : t.allowed c) (he : e ∈ c.logs)
    (haction : e.action = "release") (r : Except PlaneExn c.Res) :
    t.past? = some (e.tenantId, e.leaseId) ∧ (t.next c r).lease? = none := by
  cases c with
  | logLease e' =>
    obtain rfl := List.mem_singleton.mp he
    rcases hc with ⟨-, hnot⟩ | rfl | rfl
    · exact absurd haction hnot
    · exact ⟨rfl, rfl⟩
    · exact ⟨rfl, rfl⟩
  | _ => cases he

theorem LeaseStage.lease?_of_past? {p : String × String} (h : t.past? = some p) :
    t.lease? = some p := by
  cases t with
  | returning | freed => exact h
  | _ => cases h

/-- Whoever may log a release has the lease or has taken it out of its set. -/
theorem LeaseStage.holding?_or_past? (h : t.lease? = some (u, leaseId)) :
    t.holding? = some leaseId ∨ t.past? = some (u, leaseId) := by
  cases t with
  | leased u' leaseId' => exact .inl (congrArg (·.map Prod.snd) h)
  | _ => exact .inr h

end Stages

/-! ## Runs -/

abbrev LeaseConf := Conf planeSig GrpcAnswer GrpcRequest LeaseWorld LeaseStage

abbrev LeaseThread := Thread planeSig GrpcAnswer GrpcRequest LeaseStage

def PlaneCall.releases? : PlaneCall → Option String
  | release _ leaseId => some leaseId
  | _ => none

/-- Whenever a request is about to release a lease, no other request that was granted the lease is
still running. -/
def Relinquished (C : LeaseConf) : Label GrpcRequest Reading → Prop
  | .spawn _ => True
  | .step i _ =>
      ∀ leaseId ∈ (C.threads[i]?.bind (·.prog.pending)).bind PlaneCall.releases?,
        ∀ th ∈ C.threads.eraseIdx i, th.prog.running = true → th.phase.holding? ≠ some leaseId

instance (C : LeaseConf) : ∀ l, Decidable (Relinquished C l)
  | .spawn _ => inferInstanceAs (Decidable True)
  | .step _ _ => inferInstanceAs (Decidable (∀ _ ∈ _, _))

/-- Nobody but thread `i` may log the release of the lease, and it has not been logged. -/
structure Unclaimed (C : LeaseConf) (i : ℕ) (leaseId : String) : Prop where
  others : ∀ {j th}, C.threads[j]? = some th → j ≠ i → th.prog.running = true →
    ∀ t, th.phase.lease? ≠ some (t, leaseId)
  unlogged : ∀ e ∈ C.state.logged, e.action = "release" → e.leaseId ≠ leaseId

/-- What holds of the leases and of the requests on their way. -/
structure ReleaseSound (C : LeaseConf) : Prop where
  leases : LeasesSound C.state
  tied : ∀ th ∈ C.threads, th.phase.Tied th.req
  granted : ∀ th ∈ C.threads, ∀ p, th.phase.lease? = some p → p ∈ C.state.granted
  past : ∀ th ∈ C.threads, ∀ t leaseId, th.phase.past? = some (t, leaseId) →
    leaseId ∉ C.state.plane.leaseIds C.state.clock t
  logged : ∀ e ∈ C.state.logged, e.action = "release" →
    (e.tenantId, e.leaseId) ∈ C.state.granted ∧
      e.leaseId ∉ C.state.plane.leaseIds C.state.clock e.tenantId
  alone : ∀ {i th t leaseId}, C.threads[i]? = some th → th.prog.running = true →
    th.phase.lease? = some (t, leaseId) → Unclaimed C i leaseId
  once : C.state.released.Nodup

section Runs

variable {S : IdentityServicer} {b : Backend} {C C' : LeaseConf} {i : ℕ} {th : LeaseThread}
  {c : PlaneCall} {k : planeSig.Answer c → PlaneHandler GrpcAnswer} {x : Reading}

variable {t leaseId : String}

/-- A lease that is in a set is nobody's, if no other request that was granted it is still running.
-/
theorem ReleaseSound.unclaimed_of_present (h : ReleaseSound C)
    (hmem : leaseId ∈ C.state.plane.leaseIds C.state.clock t)
    (hapart : ∀ th ∈ C.threads.eraseIdx i, th.prog.running = true →
      th.phase.holding? ≠ some leaseId) : Unclaimed C i leaseId := by
  have hgranted := (h.leases.present hmem).1
  refine ⟨fun {j th} hj hji hrunning u hlease ↦ ?_, fun e he haction heq ↦ ?_⟩
  · rcases LeaseStage.holding?_or_past? hlease with hholding | hpast
    · exact hapart th (List.mem_eraseIdx_iff_getElem?.mpr ⟨j, hji, hj⟩) hrunning hholding
    · have hth := List.mem_of_getElem? hj
      obtain rfl := h.leases.owner hgranted (h.granted th hth _ hlease)
      exact h.past th hth t leaseId hpast hmem
  · obtain ⟨hlogged, hout⟩ := h.logged e he haction
    rw [heq] at hlogged hout
    obtain rfl := h.leases.owner hgranted hlogged
    exact hout hmem

theorem ReleaseSound.unclaimed_of_fresh (h : ReleaseSound C)
    (hfresh : ∀ t, (t, leaseId) ∉ C.state.granted) : Unclaimed C i leaseId := by
  refine ⟨fun {j th} hj _ _ u hlease ↦ ?_, fun e he haction heq ↦ ?_⟩
  · exact hfresh u (h.granted th (List.mem_of_getElem? hj) _ hlease)
  · exact hfresh e.tenantId (heq ▸ (h.logged e he haction).1)

/-- Before a call, nobody else has a claim to the lease that the calling request has one to
afterwards. -/
theorem ReleaseSound.unclaimed (h : ReleaseSound C) (hcond : Relinquished C (.step i x))
    (hth : C.threads[i]? = some th) (hprog : th.prog = .call c k) (hc : th.phase.allowed c)
    (ha : (leaseTraffic S b).admissible C.state c x)
    (hlease : (th.phase.next c (C.state.plane.exec b S.manager x c).1).lease? =
      some (t, leaseId)) : Unclaimed C i leaseId := by
  rcases lease?_next hc hlease with hold | ⟨⟨m, hacquire⟩, rfl, -⟩ | ⟨hrelease, hmem⟩
  · exact h.alone hth (by rw [hprog]; rfl) hold
  · exact h.unclaimed_of_fresh fun u ↦ h.leases.fresh ha hacquire
  · subst hrelease
    refine h.unclaimed_of_present (mem_leaseIds_of_later ha.1 hmem) (hcond leaseId ?_)
    rw [hth, Option.bind_some, hprog]
    rfl

theorem ReleaseSound.claim_of_logs (h : ReleaseSound C) (hth : C.threads[i]? = some th)
    (hprog : th.prog = .call c k) (hc : th.phase.allowed c) {e : LeaseEvent} (he : e ∈ c.logs)
    (haction : e.action = "release") :
    th.phase.past? = some (e.tenantId, e.leaseId) ∧ Unclaimed C i e.leaseId := by
  have hpast := (logs_release hc he haction (.error (.raised ""))).1
  exact ⟨hpast, h.alone hth (by rw [hprog]; rfl) (LeaseStage.lease?_of_past? hpast)⟩

theorem ReleaseSound.alone_call (h : ReleaseSound C) (hcond : Relinquished C (.step i x))
    (hth : C.threads[i]? = some th) (hprog : th.prog = .call c k) (hc : th.phase.allowed c)
    (ha : (leaseTraffic S b).admissible C.state c x) {j : ℕ} {th' : LeaseThread}
    (hj : ((leaseTraffic S b).answered C i th c k x).threads[j]? = some th')
    (hrunning : th'.prog.running = true) (hlease : th'.phase.lease? = some (t, leaseId)) :
    Unclaimed ((leaseTraffic S b).answered C i th c k x) j leaseId := by
  rw [Server.getElem?_answered hth] at hj
  split_ifs at hj with hji
  · -- the request that has made the call
    subst hji
    obtain rfl := Option.some.inj hj
    obtain ⟨hothers, hunlogged⟩ := h.unclaimed hcond hth hprog hc ha hlease
    refine ⟨fun {m th₁} hm hne ↦ ?_, fun e he haction heq ↦ ?_⟩
    · rw [Server.getElem?_answered hth, if_neg hne] at hm
      exact hothers hm hne
    · rcases List.mem_append.mp he with he | he
      · cases hlease.symm.trans (logs_release hc he haction _).2
      · exact hunlogged e he haction heq
  · obtain ⟨hothers, hunlogged⟩ := h.alone hj hrunning hlease
    refine ⟨fun {m th₁} hm hne hrun₁ u hlease₁ ↦ ?_, fun e he haction heq ↦ ?_⟩
    · rw [Server.getElem?_answered hth] at hm
      split_ifs at hm with hmi
      · obtain rfl := Option.some.inj hm
        exact (h.unclaimed hcond hth hprog hc ha hlease₁).others hj hji hrunning t hlease
      · exact hothers hm hne hrun₁ u hlease₁
    · rcases List.mem_append.mp he with he | he
      · exact (h.claim_of_logs hth hprog hc he haction).2.others hj hji hrunning t (heq ▸ hlease)
      · exact hunlogged e he haction heq

/-- **One call of a request.** -/
theorem ReleaseSound.call (h : ReleaseSound C) (hcond : Relinquished C (.step i x))
    (hth : C.threads[i]? = some th) (hprog : th.prog = .call c k) (hc : th.phase.allowed c)
    (ha : (leaseTraffic S b).admissible C.state c x) :
    ReleaseSound ((leaseTraffic S b).answered C i th c k x) := by
  have hmem := List.mem_of_getElem? hth
  refine ⟨h.leases.exec ha, fun th' hth' ↦ ?_, fun th' hth' p hp ↦ ?_,
    fun th' hth' t leaseId hp ↦ ?_,
    fun e he haction ↦ ?_, h.alone_call hcond hth hprog hc ha, ?_⟩
  · rcases Server.mem_threads_answered hth' with hth' | rfl
    · exact h.tied th' hth'
    · exact (h.tied th hmem).next _
  · rcases Server.mem_threads_answered hth' with hth' | rfl
    · exact List.mem_append_right _ (h.granted th' hth' p hp)
    · rcases lease?_next hc hp with hold | ⟨⟨m, hacquire⟩, hid, hin⟩ | ⟨-, hin⟩
      · exact List.mem_append_right _ (h.granted th hmem p hold)
      · refine List.mem_append_left _ (PlaneCall.mem_newLeases.mpr ⟨by rw [hacquire]; rfl, hin, ?_⟩)
        exact fun hold ↦ h.leases.fresh ha hacquire (hid ▸ (h.leases.present_now ha hold).1)
      · exact List.mem_append_right _ (h.leases.present_now ha hin).1
  · rcases Server.mem_threads_answered hth' with hth' | rfl
    · exact h.leases.stays_out ha (h.granted th' hth' _ (LeaseStage.lease?_of_past? hp))
        (h.past th' hth' t leaseId hp)
    · rcases past?_next hc hp with hold | hout
      · exact h.leases.stays_out ha (h.granted th hmem _ (LeaseStage.lease?_of_past? hold))
          (h.past th hmem t leaseId hold)
      · exact hout
  · obtain ⟨hgranted, hout⟩ : (e.tenantId, e.leaseId) ∈ C.state.granted ∧
        e.leaseId ∉ C.state.plane.leaseIds C.state.clock e.tenantId := by
      rcases List.mem_append.mp he with he | he
      · have hpast := (h.claim_of_logs hth hprog hc he haction).1
        exact ⟨h.granted th hmem _ (LeaseStage.lease?_of_past? hpast), h.past th hmem _ _ hpast⟩
      · exact h.logged e he haction
    exact ⟨List.mem_append_right _ hgranted, h.leases.stays_out ha hgranted hout⟩
  · change (((c.logs ++ C.state.logged).filter (·.action = "release")).map (·.leaseId)).Nodup
    rw [List.filter_append, List.map_append]
    refine List.Nodup.append ?_ h.once fun leaseId hnew hold ↦ ?_
    · cases c with
      | logLease e => exact (List.nodup_singleton e.leaseId).sublist (List.filter_sublist.map _)
      | _ => exact List.nodup_nil
    · obtain ⟨e, he, rfl⟩ := List.mem_map.mp hnew
      obtain ⟨e', he', heq⟩ := List.mem_map.mp hold
      rw [List.mem_filter, decide_eq_true_eq] at he he'
      exact (h.claim_of_logs hth hprog hc he.1 he.2).2.unlogged e' he'.1 he'.2 heq

theorem ReleaseSound.spawn {req : GrpcRequest} (h : ReleaseSound C) :
    ReleaseSound ⟨C.state, C.threads ++ [(leaseTraffic S b).newThread req]⟩ := by
  have hnone : req.stage.lease? = none ∧ req.stage.past? = none := by
    cases req <;> exact ⟨rfl, rfl⟩
  have hcases {th : LeaseThread} (hth : th ∈ C.threads ++ [(leaseTraffic S b).newThread req]) :
      th ∈ C.threads ∨ th = (leaseTraffic S b).newThread req := by
    rwa [List.mem_append, List.mem_singleton] at hth
  have hget {j : ℕ} {th : LeaseThread} {p : String × String}
      (hj : (C.threads ++ [(leaseTraffic S b).newThread req])[j]? = some th)
      (hp : th.phase.lease? = some p) : C.threads[j]? = some th := by
    rw [List.getElem?_append] at hj
    split_ifs at hj
    · exact hj
    · obtain rfl := List.mem_singleton.mp (List.mem_of_getElem? hj)
      cases hnone.1.symm.trans hp
  refine ⟨h.leases, fun th hth ↦ ?_, fun th hth p hp ↦ ?_, fun th hth t leaseId hp ↦ ?_, h.logged,
    fun {j th t leaseId} hj hrunning hlease ↦ ?_, h.once⟩
  · rcases hcases hth with hth | rfl
    · exact h.tied th hth
    · intro t leaseId htarget
      change req.target? = some (t, leaseId) at htarget
      refine .inl (?_ : req.stage = .naming t leaseId)
      rw [GrpcRequest.stage, htarget]
  · rcases hcases hth with hth | rfl
    · exact h.granted th hth p hp
    · cases hnone.1.symm.trans hp
  · rcases hcases hth with hth | rfl
    · exact h.past th hth t leaseId hp
    · cases hnone.2.symm.trans hp
  · obtain ⟨hothers, hunlogged⟩ := h.alone (hget hj hlease) hrunning hlease
    exact ⟨fun hm hne hrun u hu ↦ hothers (hget hm hu) hne hrun u hu, hunlogged⟩

/-- Where a run may start: the observer has noted the leases that Redis holds, and nothing else. -/
structure LeaseWorld.Start (w : LeaseWorld) : Prop where
  present : ∀ {t leaseId}, leaseId ∈ w.plane.leaseIds w.clock t → (t, leaseId) ∈ w.granted
  drawn : ∀ {t leaseId}, (t, leaseId) ∈ w.granted →
    ∃ d ∈ w.drawn, SuffixOk d ∧ leaseId = leaseIdOf t d
  removed : w.removed = []
  logged : w.logged = []

/-- **The run lemma.** -/
theorem ReleaseSound.run {w : LeaseWorld} {ls : List (Label GrpcRequest Reading)} (hw : w.Start)
    (hcond : (leaseTraffic S b).Along Relinquished ls ⟨w, []⟩)
    (hrun : (leaseTraffic S b).run ls ⟨w, []⟩ = some C) :
    ReleaseSound C ∧ (leaseTraffic S b).Disciplined (fun _ _ _ ↦ True) C := by
  have hleases : LeasesSound w := by
    refine ⟨fun hmem ↦ ⟨hw.present hmem, ?_⟩, hw.drawn, ?_, ?_⟩
    · rw [hw.removed]
      exact List.not_mem_nil
    · rw [hw.removed]
      exact nofun
    · rw [hw.removed]
      exact List.nodup_nil
  have hnone {P : LeaseThread → Prop} : ∀ th ∈ ([] : List LeaseThread), P th :=
    fun _ hth ↦ absurd hth List.not_mem_nil
  have hunlogged {P : LeaseEvent → Prop} : ∀ e ∈ w.logged, P e := by
    rw [hw.logged]
    exact nofun
  have hstart : ReleaseSound ⟨w, []⟩ := by
    refine ⟨hleases, hnone, hnone, hnone, hunlogged, nofun, ?_⟩
    rw [LeaseWorld.released, hw.logged]
    exact List.nodup_nil
  exact Server.disciplined_invariant_along (P := ReleaseSound) (fun {_ req} _ ↦ serveGrpc_wp req)
    (fun hC _ ↦ hC.spawn)
    (fun hC _ hcond hth hprog hc ha ↦ ⟨trivial, hC.call hcond hth hprog hc ha⟩)
    hstart (Server.disciplined_nil _ _) hcond hrun

/-- A request that names a lease which its tenant was not granted changes no lease set and logs
nothing. -/
theorem ReleaseSound.foreign (h : ReleaseSound C)
    (hth : C.threads[i]? = some th) (hprog : th.prog = .call c k) (hc : th.phase.allowed c)
    (ha : (leaseTraffic S b).admissible C.state c x)
    (htarget : th.req.target? = some (t, leaseId)) (hforeign : (t, leaseId) ∉ C.state.granted) :
    (∀ u time, (C.state.plane.exec b S.manager x c).2.leaseIds time u =
      C.state.plane.leaseIds time u) ∧ c.logs = [] := by
  have hmem := List.mem_of_getElem? hth
  have hfreed : th.phase ≠ .freed t leaseId := fun hphase ↦
    hforeign (h.granted th hmem (t, leaseId) (by rw [hphase]; rfl))
  have hother (hnone : c.leaseTenant? = none) (u : String) (time : Time) :
      (C.state.plane.exec b S.manager x c).2.leaseIds time u = C.state.plane.leaseIds time u :=
    leaseIds_exec_of_ne (by rw [hnone]; nofun) time
  cases c with
  | acquire t' m =>
    rcases h.tied th hmem t leaseId htarget with hphase | hphase | hphase <;>
      cases hphase.symm.trans hc
  | release t' leaseId' =>
    refine ⟨fun u time ↦ ?_, rfl⟩
    have hphase : th.phase = .naming t leaseId := by
      rcases h.tied th hmem t leaseId htarget with hphase | hphase | hphase
      · exact hphase
      · exact absurd hphase hfreed
      · rcases hc with hc | hc <;> cases hphase.symm.trans hc
    rw [hphase] at hc
    obtain ⟨rfl, rfl⟩ := LeaseStage.naming.inj (hc.resolve_left nofun)
    rw [release_of_not_mem fun hin ↦ hforeign (h.leases.present_now ha hin).1]
  | logLease e =>
    rcases h.tied th hmem t leaseId htarget with hphase | hphase | hphase
    · rw [hphase] at hc
      rcases hc with ⟨hc, -⟩ | hc | hc <;> cases hc
    · exact absurd hphase hfreed
    · rw [hphase] at hc
      rcases hc with ⟨hc, -⟩ | hc | hc <;> cases hc
  | _ => exact ⟨hother rfl, rfl⟩

/-- Leases are released once and by their owner, up to the configuration `C` and in the step after
it. -/
structure ReleasedOnce (S : IdentityServicer) (b : Backend) (C : LeaseConf) : Prop where
  /-- No lease has been removed twice. -/
  removed : C.state.removed.Nodup
  /-- No lease has been logged as released twice. -/
  logged : C.state.released.Nodup
  owner : ∀ t u leaseId, (t, leaseId) ∈ C.state.granted → (u, leaseId) ∈ C.state.granted → t = u
  /-- A release that succeeds frees one slot, of the tenant that the lease was granted to. -/
  frees : ∀ i th t leaseId k x C' n, C.threads[i]? = some th →
    th.prog = .call (.release t leaseId) k → (leaseTraffic S b).apply C (.step i x) = some C' →
    (C.state.plane.exec b S.manager x (.release t leaseId)).1 = .ok n → 0 ≤ n →
    (t, leaseId) ∈ C.state.granted ∧ (t, leaseId) ∈ C'.state.removed ∧
      C'.state.plane.redis.zcard x.clock (leasesKey t) + 1 =
        C.state.plane.redis.zcard x.clock (leasesKey t) ∧
      ∀ u ≠ t, ∀ time, C'.state.plane.leaseIds time u = C.state.plane.leaseIds time u
  /-- A request that names a lease and a tenant it was not granted to does nothing to the leases. -/
  foreign : ∀ i th t leaseId x C', C.threads[i]? = some th → th.req.target? = some (t, leaseId) →
    (t, leaseId) ∉ C.state.granted → (leaseTraffic S b).apply C (.step i x) = some C' →
    (∀ u time, C'.state.plane.leaseIds time u = C.state.plane.leaseIds time u) ∧
      C'.state.logged = C.state.logged

/-- **Leases are released once and by their owner**, in every run in which no request releases a
lease while another request that was granted it is still running. -/
theorem leases_released_once (S : IdentityServicer) (b : Backend) (w : LeaseWorld) (hw : w.Start)
    (ls : List (Label GrpcRequest Reading)) (C : LeaseConf)
    (hcond : (leaseTraffic S b).Along Relinquished ls ⟨w, []⟩)
    (hrun : (leaseTraffic S b).run ls ⟨w, []⟩ = some C) : ReleasedOnce S b C := by
  obtain ⟨h, hdis⟩ := ReleaseSound.run hw hcond hrun
  refine ⟨h.leases.once, h.once, fun t u leaseId ↦ h.leases.owner, ?_, ?_⟩
  · intro i th t leaseId k x C' n hth hprog happly hanswer hn
    rcases Server.apply_cases happly with ⟨req, hl, -⟩ | ⟨i', x', th', c, k',
      hl, hth', hprog', ha, rfl⟩
    · cases hl
    cases hl
    obtain rfl := Option.some.inj (hth.symm.trans hth')
    cases hprog.symm.trans hprog'
    obtain ⟨hmem, hslot⟩ := release_frees hanswer hn
    refine ⟨(h.leases.present_now ha hmem).1, List.mem_append_left _ ?_, hslot, fun u hu time ↦ ?_⟩
    · exact PlaneCall.mem_newLeases.mpr ⟨rfl, hmem, not_mem_leaseIds_release hanswer⟩
    · have hother : PlaneCall.leaseTenant? (.release t leaseId) ≠ some u :=
        fun heq ↦ hu (Option.some.inj heq).symm
      exact leaseIds_exec_of_ne hother time
  · intro i th t leaseId x C' hth htarget hforeign happly
    rcases Server.apply_cases happly with ⟨req, hl, -⟩ | ⟨i', x', th', c, k,
      hl, hth', hprog, ha, rfl⟩
    · cases hl
    cases hl
    obtain rfl := Option.some.inj (hth.symm.trans hth')
    have hwp := hdis th (List.mem_of_getElem? hth)
    rw [hprog, wp_call] at hwp
    obtain ⟨hsets, hlogs⟩ := h.foreign hth hprog hwp.1 ha htarget hforeign
    refine ⟨hsets, ?_⟩
    change c.logs ++ C.state.logged = C.state.logged
    rw [hlogs, List.nil_append]

end Runs

namespace Sample

def workerKey : String := "fmu_Zt7Kq2Wn9Xs4Lb6Vd1Rf8Hc3Jy5Pg0Ma"

def workerKeyHash : String := "edb2ee02b18e254d65420199813131795b1eaf7527653fddc02f46d8c39682e0"

def workerServicer : IdentityServicer where
  cacheOn := true
  manager := manager
  sha256 := fun s ↦ if s = workerKey then workerKeyHash else "sha:" ++ s
  sha256_ne := fun s ↦ by
    split_ifs
    · decide
    · simp

def limitedPlane : Plane where
  store :=
    { tenants := (∅ : Dict String Tenant).set "acme" ⟨"acme", "Acme", "active", "pro", "invite"⟩
      apiKeys := (∅ : Dict String ApiKey).set "key_9f2c41d07be3"
        ⟨"key_9f2c41d07be3", "acme", workerKeyHash, none⟩
      keyHashIndex := (∅ : Dict String String).set workerKeyHash "key_9f2c41d07be3"
      quotas := (∅ : Dict String Quota).set "acme" { acmeQuota with rpm := 1 } }
  redis := {}

def limitedWorld : LeaseWorld := { plane := limitedPlane, clock := 1767225600 }

def ask : Label GrpcRequest Reading := .spawn (.authorize { apiKey := workerKey })

def letGo (tenantId leaseId : String) : Label GrpcRequest Reading :=
  .spawn (.releaseLease { tenantId, leaseId })

def turns (i n : ℕ) (now : ℤ) (draw : String) : List (Label GrpcRequest Reading) :=
  List.replicate n
    (.step i { clock := now, now := now, draw := draw, uid := i, today := "2026-01-01" })

/-- Two requests are served, the second is refused by the rate limit; the first lease is released by
its owner, and then once more, and by somebody else. -/
def releasedInTurn : List (Label GrpcRequest Reading) :=
  ask :: turns 0 9 1767225600 "5d1f0a9c3e70" ++ ask :: turns 1 7 1767225601 "8b20c4d7f1e6" ++
    letGo "acme" "acme:5d1f0a9c3e70" :: turns 2 2 1767225602 "" ++
    letGo "acme" "acme:5d1f0a9c3e70" :: turns 3 1 1767225603 "" ++
    letGo "acm" "acm:5d1f0a9c3e70" :: turns 4 1 1767225604 ""

/-- The second request is about to be refused by the rate limit when its lease is released. -/
def releasedMeanwhile : List (Label GrpcRequest Reading) :=
  ask :: turns 0 9 1767225600 "5d1f0a9c3e70" ++ ask :: turns 1 5 1767225601 "8b20c4d7f1e6" ++
    letGo "acme" "acme:8b20c4d7f1e6" :: turns 2 2 1767225601 "" ++ turns 1 2 1767225601 ""

end Sample

section Instances

open Sample

theorem start_limitedWorld : limitedWorld.Start :=
  ⟨nofun, nofun, rfl, rfl⟩

theorem leases_released_once_in_turn :
    ∃ C, (leaseTraffic workerServicer .inMemory).run releasedInTurn ⟨limitedWorld, []⟩ = some C ∧
      C.state.released = ["acme:5d1f0a9c3e70", "acme:8b20c4d7f1e6"] ∧
      ReleasedOnce workerServicer .inMemory C := by
  have heval : ∃ C ∈ (leaseTraffic workerServicer .inMemory).run releasedInTurn ⟨limitedWorld, []⟩,
      C.state.released = ["acme:5d1f0a9c3e70", "acme:8b20c4d7f1e6"] := by
    decide +kernel
  have hcond : (leaseTraffic workerServicer .inMemory).Along Relinquished releasedInTurn
      ⟨limitedWorld, []⟩ := by
    decide +kernel
  obtain ⟨C, hC, hreleased⟩ := heval
  exact ⟨C, hC, hreleased,
    leases_released_once workerServicer .inMemory limitedWorld start_limitedWorld _ C hcond hC⟩

/-- A lease is released while the request that was granted it is about to be refused, and its
release is logged twice. -/
theorem lease_release_logged_twice :
    ((leaseTraffic workerServicer .inMemory).run releasedMeanwhile ⟨limitedWorld, []⟩).map
        (fun C ↦ (C.state.released, C.state.removed, C.state.plane.store.leaseLog.length)) =
      some (["acme:8b20c4d7f1e6", "acme:8b20c4d7f1e6"], [("acme", "acme:8b20c4d7f1e6")], 4) := by
  decide +kernel

end Instances

end FusionIdentity
