import FusionIdentity.Foundation.Interleaving
import FusionIdentity.Store.Postgres

/-!
# Invites

`POST /api/v1/auth/invites/redeem` looks at the invite, adds the member and then marks the invite as
used, in three calls of the store. Marking is a compare-and-swap, so only one request ever flips
`used_at`; but that comes after the membership has been written, and the route ignores the result.

Requests with the same token run interleaved here, each followed by its `Stage`: it has read the
invite, or it has added its member and not yet marked the invite. A second membership needs a
request that adds its member while another one stands between these two calls, or after the invite
was marked.
-/

namespace FusionIdentity

open Foundation Foundation.Prog

/-! ## The table of invites -/

/-- A row of `tenant_invites`. -/
structure Invite where
  inviteId : String
  tenantId : String
  tokenHash : String
  role : String
  expiresAt : Time
  usedAt : Option Time := none
  usedBy : Option String := none
  deriving DecidableEq

structure InviteTable where
  rows : Dict String Invite
  keyed : ∀ {id invite}, rows.get? id = some invite → invite.inviteId = id

namespace InviteTable

def empty : InviteTable := ⟨∅, nofun⟩

def insert (t : InviteTable) (invite : Invite) : InviteTable where
  rows := t.rows.set invite.inviteId invite
  keyed {id r} h := by
    rw [Dict.get?_set] at h
    split_ifs at h with hid
    · rw [hid, ← Option.some.inj h]
    · exact t.keyed h

def find (t : InviteTable) (tokenHash : String) : Option Invite :=
  t.rows.values.find? (·.tokenHash = tokenHash)

def stamped (now : Time) (userId : String) (invite : Invite) : Invite :=
  { invite with usedAt := some now, usedBy := some userId }

def stamp (t : InviteTable) (now : Time) (inviteId userId : String) : InviteTable where
  rows := t.rows.modify inviteId (stamped now userId)
  keyed {id r} h := by
    rw [Dict.get?_modify] at h
    split_ifs at h with hid
    · obtain ⟨r', hr', rfl⟩ := Option.map_eq_some_iff.mp h
      exact (t.keyed hr' : r'.inviteId = id)
    · exact t.keyed h

theorem find_stamp (t : InviteTable) (now : Time) (inviteId u tokenHash : String) :
    (t.stamp now inviteId u).find tokenHash = (t.find tokenHash).map fun r ↦
      if r.inviteId = inviteId then stamped now u r else r := by
  have hvalues : (t.stamp now inviteId u).rows.values = t.rows.entries.map fun e ↦
      if e.1 = inviteId then stamped now u e.2 else e.2 := by
    simp [stamp, Dict.modify, Dict.mapValues, Dict.values, Function.comp_def]
  -- a stamp keeps the hash, so both searches stop at the same row
  have hsame (e : String × Invite) :
      (if e.1 = inviteId then stamped now u e.2 else e.2).tokenHash = e.2.tokenHash := by
    split_ifs <;> rfl
  rw [find, hvalues, find, Dict.values, List.find?_map, List.find?_map]
  simp only [Function.comp_def, hsame]
  rw [Option.map_map]
  refine Option.map_congr fun e he ↦ ?_
  have hkey : e.2.inviteId = e.1 :=
    t.keyed (Dict.get?_eq_some_iff.mpr (List.mem_of_find?_eq_some he))
  rw [Function.comp_apply, hkey]

theorem get?_of_find {t : InviteTable} {tokenHash : String} {invite : Invite}
    (h : t.find tokenHash = some invite) : t.rows.get? invite.inviteId = some invite := by
  obtain ⟨id, hid⟩ := Dict.mem_values_iff.mp (List.mem_of_find?_eq_some h)
  rwa [t.keyed hid]

end InviteTable

structure JoinStore extends Store where
  invites : InviteTable

/-! ## The calls of the route -/

inductive JoinExn
  /-- `HTTPException`. -/
  | http (status : ℕ) (detail : String)
  | storeConflict (text : String)
  | db (e : DbError)
  deriving DecidableEq

inductive JoinCall
  | getInviteByHash (tokenHash : String)
  /-- `time.time()`. -/
  | time
  | getTenantStatus (tenantId : String)
  | getMemberRole (tenantId userId : String)
  | addMember (tenantId userId role : String)
  | markInviteUsed (inviteId userId : String)
  | appendAudit (event : AuditEvent)

@[reducible] def JoinCall.Res : JoinCall → Type
  | getInviteByHash _ => Option Invite
  | time => Time
  | getTenantStatus _ => Option String
  | getMemberRole _ _ => Option String
  | addMember _ _ _ => Unit
  | markInviteUsed _ _ => Bool
  | appendAudit _ => Unit

@[reducible] def joinSig : Signature where
  Call := JoinCall
  Res := JoinCall.Res
  Err := JoinExn

abbrev JoinHandler (α : Type) := Prog joinSig α

namespace JoinStore

variable (b : Backend) (s : JoinStore)

/-- `add_member`. In memory the row of a member is overwritten; in Postgres a second row for it is
refused, and so is a row without its tenant or its user, whom `redeem_invite` names as `added_by`
too. -/
def addMember (tenantId userId role : String) : Except JoinExn JoinStore :=
  let added : JoinStore := { s with members := s.members.set (tenantId, userId) ⟨role⟩ }
  if ¬ InMemoryStore.isValidRole s.toStore tenantId role then
    .error (.storeConflict ("unknown role " ++ role))
  else
    match b with
    | .inMemory => .ok added
    | .postgres _ =>
        if (s.members.get? (tenantId, userId)).isSome then
          .error (.storeConflict ("member " ++ userId ++ " already in " ++ tenantId))
        else if (s.tenants.get? tenantId).isNone then
          .error (.db (.foreignKey "tenant_members_tenant_id_fkey"))
        else if (s.users.get? userId).isNone then
          .error (.db (.foreignKey "tenant_members_user_id_fkey"))
        else .ok added

/-- `mark_invite_used`: only an invite that is not used yet. In Postgres `used_by` refers to a
user. -/
def markInviteUsed (now : Time) (inviteId userId : String) : Except JoinExn (Bool × JoinStore) :=
  match (s.invites.rows.get? inviteId).filter (·.usedAt.isNone) with
  | none => .ok (false, s)
  | some _ =>
      let marked : JoinStore := { s with invites := s.invites.stamp now inviteId userId }
      match b with
      | .inMemory => .ok (true, marked)
      | .postgres _ =>
          if (s.users.get? userId).isNone then
            .error (.db (.foreignKey "tenant_invites_used_by_fkey"))
          else .ok (true, marked)

/-- Replace the store after a method that may raise. -/
def written {α : Type} : Except JoinExn (α × JoinStore) → Except JoinExn α × JoinStore
  | .ok (a, s') => (.ok a, s')
  | .error e => (.error e, s)

def exec (c : JoinCall) (now : Time) (s : JoinStore) : Except JoinExn c.Res × JoinStore :=
  match c with
  | .getInviteByHash tokenHash => (.ok (s.invites.find tokenHash), s)
  | .time => (.ok now, s)
  | .getTenantStatus tenantId => (.ok (InMemoryStore.getTenantStatus s.toStore tenantId), s)
  | .getMemberRole tenantId userId =>
      (.ok (InMemoryStore.getMemberRole s.toStore tenantId userId), s)
  | .addMember tenantId userId role => s.written ((s.addMember b tenantId userId role).map ((), ·))
  | .markInviteUsed inviteId userId => s.written (s.markInviteUsed b now inviteId userId)
  | .appendAudit e => (.ok (), { s with toStore := InMemoryStore.appendAudit s.toStore e })

variable {b s} {s' : JoinStore}

theorem addMember_ok {tn u role : String} (h : s.addMember b tn u role = .ok s') :
    s' = { s with members := s.members.set (tn, u) ⟨role⟩ } ∧
      (b = .inMemory ∨ (s.users.get? u).isSome) := by
  cases b with
  | inMemory =>
    simp only [addMember] at h
    split_ifs at h
    exact ⟨(Except.ok.inj h).symm, .inl rfl⟩
  | postgres cfg =>
    simp only [addMember] at h
    split_ifs at h with _ _ _ huser
    refine ⟨(Except.ok.inj h).symm, .inr ?_⟩
    rwa [Option.isNone_iff_eq_none, ← ne_eq, Option.ne_none_iff_isSome] at huser

theorem markInviteUsed_spec {tokenHash u : String} {invite : Invite} (now : Time)
    (hfind : s.invites.find tokenHash = some invite)
    (huser : b = .inMemory ∨ (s.users.get? u).isSome) :
    ∃ ok s', s.markInviteUsed b now invite.inviteId u = .ok (ok, s') ∧
      s'.toStore = s.toStore ∧ ∃ invite', s'.invites.find tokenHash = some invite' ∧
        invite'.inviteId = invite.inviteId ∧ invite'.usedAt.isSome := by
  rw [markInviteUsed, InviteTable.get?_of_find hfind]
  by_cases hused : invite.usedAt.isNone
  · rw [Option.filter_some, if_pos hused]
    have hmarked : (s.invites.stamp now invite.inviteId u).find tokenHash
        = some (InviteTable.stamped now u invite) := by
      rw [InviteTable.find_stamp, hfind, Option.map_some, if_pos rfl]
    refine ⟨true, { s with invites := s.invites.stamp now invite.inviteId u }, ?_, rfl,
      _, hmarked, rfl, rfl⟩
    cases b with
    | inMemory => rfl
    | postgres cfg =>
      have hnone : ¬ (s.users.get? u).isNone := by
        rw [Option.isNone_iff_eq_none, ← ne_eq, Option.ne_none_iff_isSome]
        exact huser.resolve_left nofun
      simp only [if_neg hnone]
  · rw [Option.filter_some, if_neg hused]
    rw [Option.isNone_iff_eq_none, ← ne_eq, Option.ne_none_iff_isSome] at hused
    exact ⟨false, s, rfl, rfl, invite, hfind, rfl, hused⟩

end JoinStore

/-! ## The route -/

def callJoin (c : JoinCall) : JoinHandler c.Res := perform (σ := joinSig) c

/-- The answer to an invite that cannot be redeemed, whatever the reason. -/
def invalidInvite : JoinExn := .http 400 "invalid or expired invite token"

def requireActiveTenant (tenantId : String) : JoinHandler Unit := do
  let status ← callJoin (.getTenantStatus tenantId)
  raiseIf (status ∈ [none, some "deleted"]) (.http 404 "tenant not found")
  raiseIf (status ≠ some "active") (.http 409 "tenant is not active")

/-- `_audit`: a failure is logged and swallowed. -/
def auditJoin (tenantId action userId : String) (detail : List (String × Datum)) :
    JoinHandler Unit :=
  (callJoin (.appendAudit ⟨tenantId, some userId, none, none, action, none, detail⟩)).outcome
    >>= fun _ ↦ ret ()

/-- The body of the answer to a redemption. -/
structure Redeemed where
  tenantId : String
  role : String
  joined : Bool
  deriving DecidableEq

/-- What `redeem_invite` does with an invite that may be redeemed. -/
def grantInvite (invite : Invite) (userId : String) : JoinHandler Redeemed := do
  callJoin (.addMember invite.tenantId userId invite.role)
  let _ ← callJoin (.markInviteUsed invite.inviteId userId)
  auditJoin invite.tenantId "member.joined" userId
    [("invite_id", .str invite.inviteId), ("role", .str invite.role)]
  return ⟨invite.tenantId, invite.role, true⟩

/-- `redeem_invite`, for the user of the bearer token. -/
def redeemInvite (sha256 : String → String) (token userId : String) : JoinHandler Redeemed := do
  let found ← callJoin (.getInviteByHash (sha256 token))
  let invite ← orRaise found invalidInvite
  raiseIf invite.usedAt.isSome invalidInvite
  let now ← callJoin .time
  raiseIf (invite.expiresAt < now) invalidInvite
  requireActiveTenant invite.tenantId
  let role ← callJoin (.getMemberRole invite.tenantId userId)
  raiseIf role.isSome (.http 409 "already a member of this tenant")
  grantInvite invite userId

/-! ## Redemptions of one token, interleaved -/

/-- How far a redemption has come: it has read an invite, or it has added its member and not marked
the invite yet. -/
inductive Stage
  | idle
  | holds (inviteId : String)
  | granted (inviteId userId : String)
  deriving DecidableEq

namespace Stage

def allowed (tokenHash : String) : Stage → JoinCall → Prop
  | t, .getInviteByHash h => t = idle ∧ h = tokenHash
  | t, .addMember _ _ _ => ∃ id, t = holds id
  | t, .markInviteUsed id userId => t = granted id userId
  | granted _ _, _ => False
  | _, _ => True

/-- Marking the invite raises nothing once the member is there. -/
def rely : Stage → (c : JoinCall) → Except JoinExn c.Res → Prop
  | _, .markInviteUsed _ _, r => ∃ ok, r = .ok ok
  | _, _, _ => True

def next : Stage → (c : JoinCall) → Except JoinExn c.Res → Stage
  | _, .getInviteByHash _, .ok (some invite) => holds invite.inviteId
  | holds id, .addMember _ userId _, .ok _ => granted id userId
  | _, .markInviteUsed _ _, .ok _ => idle
  | t, _, _ => t

end Stage

/-- Any number of redemptions of one token, by any users. -/
def redemptions (sha256 : String → String) (b : Backend) (token : String) :
    Server joinSig Redeemed String JoinStore Time Stage where
  prog := redeemInvite sha256 token
  exec := JoinStore.exec b
  admissible _ _ _ := True
  startable _ _ := True
  discipline := ⟨Stage.allowed (sha256 token), Stage.rely, Stage.next⟩
  start _ := .idle
  decAdmissible _ _ _ := inferInstance
  decStartable _ _ := inferInstance

def Stage.settled (t : Stage) : Prop := ∀ id userId, t ≠ granted id userId

section Discipline

variable {sha256 : String → String} {b : Backend} {token : String}

theorem grantInvite_wp (invite : Invite) (u : String) :
    (grantInvite invite u).wp (redemptions sha256 b token).discipline
      (fun _ t ↦ t.settled) (.holds invite.inviteId) := by
  rw [grantInvite, callJoin, wp_perform_bind]
  refine ⟨⟨_, rfl⟩, fun _ _ ↦ ?_, fun _ _ ↦ nofun⟩
  change Prog.wp _ _ _ (Stage.granted invite.inviteId u)
  rw [callJoin, wp_perform_bind]
  refine ⟨rfl, fun _ _ ↦ ?_, ?_⟩
  · -- the audit record does not matter any more, whether it is written or not
    exact ⟨trivial, fun r _ ↦ by cases r <;> exact nofun⟩
  · rintro e ⟨ok, hok⟩
    cases hok

/-- Between reading the invite and adding the member, a redemption only reads. -/
theorem redeemInvite_wp (u : String) :
    (redeemInvite sha256 token u).wp (redemptions sha256 b token).discipline
      (fun _ t ↦ t.settled) .idle := by
  rw [redeemInvite, callJoin, wp_perform_bind]
  refine ⟨⟨rfl, rfl⟩, fun found _ ↦ ?_, fun _ _ ↦ nofun⟩
  rw [wp_orRaise_bind]
  refine ⟨?_, ?_⟩
  · rintro invite rfl
    change Prog.wp _ _ _ (Stage.holds invite.inviteId)
    rw [wp_raiseIf_bind]
    refine ⟨fun _ ↦ nofun, fun _ ↦ ?_⟩
    rw [callJoin, wp_perform_bind]
    refine ⟨trivial, fun now _ ↦ ?_, fun _ _ ↦ nofun⟩
    rw [wp_raiseIf_bind]
    refine ⟨fun _ ↦ nofun, fun _ ↦ ?_⟩
    rw [requireActiveTenant, bind_assoc, callJoin, wp_perform_bind]
    refine ⟨trivial, fun status _ ↦ ?_, fun _ _ ↦ nofun⟩
    rw [bind_assoc, wp_raiseIf_bind]
    refine ⟨fun _ ↦ nofun, fun _ ↦ ?_⟩
    rw [wp_raiseIf_bind]
    refine ⟨fun _ ↦ nofun, fun _ ↦ ?_⟩
    rw [callJoin, wp_perform_bind]
    refine ⟨trivial, fun role _ ↦ ?_, fun _ _ ↦ nofun⟩
    rw [wp_raiseIf_bind]
    exact ⟨fun _ ↦ nofun, fun _ ↦ grantInvite_wp invite u⟩
  · rintro rfl
    exact nofun

end Discipline

/-- The memberships that are in the store now and were not in it before. -/
def joinedSince (s₀ s : JoinStore) : List (String × String) :=
  s.members.keys.filter (· ∉ s₀.members.keys)

def InviteUsed (tokenHash : String) (s : JoinStore) : Prop :=
  ∃ invite, s.invites.find tokenHash = some invite ∧ invite.usedAt.isSome

/-- What holds of the store and of the redemptions on their way, by position. -/
structure OneMember (b : Backend) (tokenHash : String) (s₀ s : JoinStore)
    (stages : ℕ → Option Stage) : Prop where
  /-- Whoever holds an invite holds the one the token leads to. -/
  invite : ∀ {j t id}, stages j = some t → (t = .holds id ∨ ∃ userId, t = .granted id userId) →
    (s.invites.find tokenHash).map (·.inviteId) = some id
  user : ∀ {j id userId}, stages j = some (.granted id userId) →
    b = .inMemory ∨ (s.users.get? userId).isSome
  once : (joinedSince s₀ s).length ≤ 1
  /-- Once there is a member, the invite is used or will be. -/
  spent : joinedSince s₀ s ≠ [] → InviteUsed tokenHash s ∨
    ∃ j id userId, stages j = some (.granted id userId)

namespace OneMember

variable {b : Backend} {tokenHash : String} {s₀ s s' : JoinStore} {stages : ℕ → Option Stage}
  {i : ℕ} {t t' : Stage}

theorem stage_of_update {j : ℕ} {u : Stage}
    (hu : Function.update stages i (some t') j = some u) : u = t' ∨ stages j = some u := by
  rw [Function.update_apply] at hu
  split_ifs at hu
  · exact .inl (Option.some.inj hu).symm
  · exact .inr hu

theorem quiet (h : OneMember b tokenHash s₀ s stages) (hi : ∀ t ∈ stages i, t.settled)
    (hmembers : s'.members = s.members) (husers : s'.users = s.users)
    (hinvites : s'.invites = s.invites) (ht' : t'.settled)
    (hid : ∀ id, t' = .holds id → (s.invites.find tokenHash).map (·.inviteId) = some id) :
    OneMember b tokenHash s₀ s' (Function.update stages i (some t')) := by
  have hjoined : joinedSince s₀ s' = joinedSince s₀ s := by
    rw [joinedSince, hmembers, joinedSince]
  refine ⟨fun {j u id} hu hheld ↦ ?_, fun {j id userId} hu ↦ ?_, hjoined ▸ h.once, fun hne ↦ ?_⟩
  · rw [hinvites]
    rcases stage_of_update hu with rfl | hu
    · rcases hheld with hheld | ⟨userId, hheld⟩
      · exact hid id hheld
      · exact absurd hheld (ht' id userId)
    · exact h.invite hu hheld
  · rw [husers]
    rcases stage_of_update hu with hu | hu
    · exact absurd hu.symm (ht' id userId)
    · exact h.user hu
  · rcases h.spent (hjoined ▸ hne) with ⟨invite, hfind, hused⟩ | ⟨j, id, userId, hj⟩
    · exact .inl ⟨invite, hinvites ▸ hfind, hused⟩
    · refine .inr ⟨j, id, userId, ?_⟩
      -- the redemption that has granted is another one
      have hne : j ≠ i := fun hij ↦ hi _ (hij ▸ hj) id userId rfl
      rw [Function.update_of_ne hne, hj]

theorem logged (h : OneMember b tokenHash s₀ s stages) (hi : ∀ t ∈ stages i, t.settled)
    (audit : List AuditEvent) (ht' : t'.settled)
    (hid : ∀ id, t' = .holds id → (s.invites.find tokenHash).map (·.inviteId) = some id) :
    OneMember b tokenHash s₀ { s with audit } (Function.update stages i (some t')) :=
  h.quiet hi rfl rfl rfl ht' hid

theorem grant {tn uid role id : String} (h : OneMember b tokenHash s₀ s stages)
    (hi : stages i = some (.holds id)) (hadd : s.addMember b tn uid role = .ok s')
    (hunused : ¬ InviteUsed tokenHash s) (halone : ∀ j t, stages j = some t → t.settled) :
    OneMember b tokenHash s₀ s' (Function.update stages i (some (.granted id uid))) := by
  obtain ⟨rfl, huser⟩ := JoinStore.addMember_ok hadd
  have hfirst : joinedSince s₀ s = [] := by
    by_contra hne
    rcases h.spent hne with hspent | ⟨j, id', userId', hj⟩
    · exact hunused hspent
    · exact halone j _ hj id' userId' rfl
  refine ⟨fun {j u id'} hu hheld ↦ ?_, fun {j id' userId'} hu ↦ ?_, ?_,
    fun _ ↦ .inr ⟨i, id, uid, ?_⟩⟩
  · rcases stage_of_update hu with rfl | hu
    · rcases hheld with hheld | ⟨userId', hheld⟩
      · cases hheld
      · obtain ⟨rfl, -⟩ := Stage.granted.inj hheld
        exact h.invite hi (.inl rfl)
    · exact h.invite hu hheld
  · rcases stage_of_update hu with hu | hu
    · obtain ⟨-, rfl⟩ := Stage.granted.inj hu
      exact huser
    · exact h.user hu
  · -- no new member so far, so the only new one is the one just added
    rw [joinedSince, Dict.keys_set]
    split_ifs
    · exact h.once
    · rw [List.filter_append, ← joinedSince, hfirst, List.nil_append]
      exact List.length_filter_le _ _
  · rw [Function.update_self]

theorem mark {id uid : String} (now : Time) (h : OneMember b tokenHash s₀ s stages)
    (hi : stages i = some (.granted id uid)) :
    ∃ ok s', s.markInviteUsed b now id uid = .ok (ok, s') ∧
      OneMember b tokenHash s₀ s' (Function.update stages i (some .idle)) := by
  obtain ⟨invite, hfind, rfl⟩ := Option.map_eq_some_iff.mp (h.invite hi (.inr ⟨uid, rfl⟩))
  obtain ⟨ok, s', hmark, hstore, invite', hfind', hid', hused'⟩ :=
    JoinStore.markInviteUsed_spec now hfind (h.user hi)
  refine ⟨ok, s', hmark, fun {j u id} hu hheld ↦ ?_, fun {j id userId'} hu ↦ ?_, ?_,
    fun _ ↦ .inl ⟨invite', hfind', hused'⟩⟩
  · rcases stage_of_update hu with rfl | hu
    · rcases hheld with hheld | ⟨_, hheld⟩ <;> cases hheld
    · rw [hfind', Option.map_some, hid', ← h.invite hu hheld, hfind, Option.map_some]
  · rw [hstore]
    rcases stage_of_update hu with hu | hu
    · cases hu
    · exact h.user hu
  · have hjoined : joinedSince s₀ s' = joinedSince s₀ s := by
      rw [joinedSince, hstore, joinedSince]
    exact hjoined ▸ h.once

end OneMember

/-! ## When nobody is in between -/

def JoinCall.adds : JoinCall → Bool
  | addMember _ _ _ => true
  | _ => false

def JoinCall.marks : JoinCall → Bool
  | markInviteUsed _ _ => true
  | _ => false

abbrev JoinConf := Conf joinSig Redeemed String JoinStore Stage

/-- Whenever a member is about to be added, the invite is not used, and no request is about to mark
it. -/
def Unraced (tokenHash : String) (C : JoinConf) : Label String Time → Prop
  | .spawn _ => True
  | .step i _ => C.threads[i]?.any (·.aboutTo JoinCall.adds) = true →
      (C.state.invites.find tokenHash).all (·.usedAt.isNone) = true ∧
        ∀ th ∈ C.threads, th.aboutTo JoinCall.marks = false

instance (tokenHash : String) (C : JoinConf) : ∀ l, Decidable (Unraced tokenHash C l)
  | .spawn _ => inferInstanceAs (Decidable True)
  | .step _ _ => inferInstanceAs (Decidable (_ → _))

section Runs

variable {sha256 : String → String} {b : Backend} {token : String}
    {s₀ : JoinStore} {C C' : JoinConf}

theorem aboutTo_marks_of_granted {id uid : String} {th : Thread joinSig Redeemed String Stage}
    (hdis : (redemptions sha256 b token).Disciplined (fun _ _ t ↦ t.settled) C)
    (hth : th ∈ C.threads) (hphase : th.phase = .granted id uid) :
    th.aboutTo JoinCall.marks = true := by
  have hwp := hdis th hth
  rw [hphase] at hwp
  cases hprog : th.prog with
  | ret a =>
    rw [hprog, wp_ret] at hwp
    exact absurd rfl (hwp id uid)
  | raise e =>
    rw [hprog, wp_raise] at hwp
    exact absurd rfl (hwp id uid)
  | call c k =>
    rw [hprog, wp_call] at hwp
    obtain ⟨hallowed, -⟩ := hwp
    rw [Thread.aboutTo, hprog]
    cases c with
    | markInviteUsed id' userId' => rfl
    | getInviteByHash h => cases hallowed.1
    | addMember t u r =>
      obtain ⟨_, h⟩ := hallowed
      cases h
    | _ => exact hallowed.elim

/-- **One call of a redemption.** -/
theorem oneMember_call {i : ℕ} {th : Thread joinSig Redeemed String Stage} {c : JoinCall}
    {k : joinSig.Answer c → JoinHandler Redeemed} {now : Time}
    (h : OneMember b (sha256 token) s₀ C.state C.phases)
    (hdis : (redemptions sha256 b token).Disciplined (fun _ _ t ↦ t.settled) C)
    (hcond : Unraced (sha256 token) C (.step i now)) (hth : C.threads[i]? = some th)
    (hprog : th.prog = .call c k) (hallowed : th.phase.allowed (sha256 token) c) :
    th.phase.rely c (JoinStore.exec b c now C.state).1 ∧
      OneMember b (sha256 token) s₀ ((redemptions sha256 b token).answered C i th c k now).state
        ((redemptions sha256 b token).answered C i th c k now).phases := by
  obtain ⟨req, t, prog⟩ := th
  have hi : C.phases i = some t := by rw [Conf.phases, hth]; rfl
  have hsettled (ht : t.settled) : ∀ t ∈ C.phases i, t.settled := by
    rintro t' ht'
    rw [hi, Option.mem_some] at ht'
    exact ht' ▸ ht
  rw [Server.phases_answered hth]
  change _ ∧ OneMember b (sha256 token) s₀ (JoinStore.exec b c now C.state).2
    (Function.update C.phases i (some (t.next c (JoinStore.exec b c now C.state).1)))
  change t.allowed (sha256 token) c at hallowed
  cases c with
  | getInviteByHash tokenHash =>
    obtain ⟨rfl, rfl⟩ := hallowed
    refine ⟨trivial, ?_⟩
    rw [JoinStore.exec]
    rcases hfind : C.state.invites.find (sha256 token) with _ | invite
    · exact h.quiet (hsettled (by rintro _ _ ⟨⟩)) rfl rfl rfl (by rintro _ _ ⟨⟩) (by rintro _ ⟨⟩)
    · refine h.quiet (hsettled (by rintro _ _ ⟨⟩)) rfl rfl rfl (by rintro _ _ ⟨⟩) fun id hid ↦ ?_
      rw [hfind, Option.map_some, Stage.holds.inj hid]
  | addMember tenantId userId role =>
    obtain ⟨id, rfl⟩ := hallowed
    refine ⟨trivial, ?_⟩
    have hadds : C.threads[i]?.any (·.aboutTo JoinCall.adds) = true := by
      rw [hth, Option.any_some, Thread.aboutTo, show prog = _ from hprog]
      rfl
    obtain ⟨hunused, hmarks⟩ := hcond hadds
    rw [JoinStore.exec]
    rcases hadd : C.state.addMember b tenantId userId role with e | s'
    · exact h.quiet (hsettled (by rintro _ _ ⟨⟩)) rfl rfl rfl (by rintro _ _ ⟨⟩) fun id' hid ↦
        h.invite hi (.inl hid)
    · refine h.grant hi hadd ?_ fun j t hj id' userId' ht ↦ ?_
      · rintro ⟨invite, hfind, hused⟩
        rw [hfind, Option.all_some, Option.isNone_iff_eq_none] at hunused
        rw [hunused] at hused
        cases hused
      · obtain ⟨th', hth', rfl⟩ := Option.map_eq_some_iff.mp hj
        have hmem := List.mem_of_getElem? hth'
        cases (hmarks th' hmem).symm.trans (aboutTo_marks_of_granted hdis hmem ht)
  | markInviteUsed id userId =>
    obtain rfl := hallowed
    obtain ⟨ok, s', hmark, hnext⟩ := h.mark now hi
    rw [JoinStore.exec, hmark]
    exact ⟨⟨ok, rfl⟩, hnext⟩
  | appendAudit e =>
    cases t with
    | granted id userId => exact hallowed.elim
    | _ => exact ⟨trivial, h.logged (hsettled (by rintro _ _ ⟨⟩)) _ (by rintro _ _ ⟨⟩) fun id hid ↦
        h.invite hi (.inl hid)⟩
  | _ =>
    cases t with
    | granted id userId => exact hallowed.elim
    | _ =>
      exact ⟨trivial, h.quiet (hsettled (by rintro _ _ ⟨⟩)) rfl rfl rfl (by rintro _ _ ⟨⟩)
        fun id hid ↦ h.invite hi (.inl hid)⟩

/-- **An invite is redeemed at most once**, in every run in which members are only added while the
invite is unused and no request stands between adding its member and marking the invite. -/
theorem redeemed_once {ls : List (Label String Time)}
    (hcond : (redemptions sha256 b token).Along (Unraced (sha256 token)) ls ⟨s₀, []⟩)
    (hrun : (redemptions sha256 b token).run ls ⟨s₀, []⟩ = some C) :
    (joinedSince s₀ C.state).length ≤ 1 := by
  have hnew : joinedSince s₀ s₀ = [] := by
    rw [joinedSince, List.filter_eq_nil_iff]
    intro p hp
    simpa using hp
  have hfirst : OneMember b (sha256 token) s₀ s₀ (⟨s₀, []⟩ : JoinConf).phases :=
    ⟨nofun, nofun, by rw [hnew]; exact Nat.zero_le 1, fun hne ↦ absurd hnew hne⟩
  have hall : OneMember b (sha256 token) s₀ C.state C.phases ∧
      (redemptions sha256 b token).Disciplined (fun _ _ t ↦ t.settled) C := by
    refine Server.disciplined_invariant_along (V := redemptions sha256 b token)
      (P := fun C ↦ OneMember b (sha256 token) s₀ C.state C.phases)
      (fun {_ userId} _ ↦ redeemInvite_wp userId) (fun {C userId} hC _ ↦ ?_)
      (fun hC hdis hcond hth hprog hallowed _ ↦ oneMember_call hC hdis hcond hth hprog hallowed)
      hfirst (Server.disciplined_nil _ _) hcond hrun
    -- a request that arrives has done nothing yet
    rw [Server.phases_spawn]
    refine hC.quiet (fun t ht ↦ ?_) rfl rfl rfl nofun nofun
    rw [Conf.phases, List.getElem?_eq_none (Nat.le_refl _)] at ht
    cases ht
  exact hall.1.once

end Runs

namespace Sample

def inviteToken : String := "finv_mT5yq0cJ8mXn5bVtZr3kQ1WlPs2uKd7fGh9aEo4xRiB"

def inviteHash (s : String) : String :=
  if s = inviteToken then "94bd249951dac862029d6202fe4721ec6026dd0452a88f986755ba43d9baee3c" else ""

def guest (userId : String) : User where
  userId := userId
  username := userId
  passwordHash := ""
  passwordHashV := ""
  salt := ""
  passwordAlgo := .argon2id
  status := "active"
  failedAttempts := 0
  lockedUntil := none
  mustChangePassword := false
  lastLoginAt := none
  emailVerified := true
  passwordResetTokenHash := none
  passwordResetExpires := none

def inviting : JoinStore where
  tenants := (∅ : Dict String Tenant).set "acme" ⟨"acme", "Acme", "active", "pro", "invite"⟩
  users := ((∅ : Dict String User).set "alice" (guest "alice")).set "bob" (guest "bob")
  invites := InviteTable.empty.insert
    { inviteId := "inv_5c1e0a9d3b7f", tenantId := "acme", tokenHash := inviteHash inviteToken
      role := "member", expiresAt := 1700604800 }

def inviteDb : Backend := .postgres ⟨900, true, true⟩

def inTurn : List (Label String Time) :=
  .spawn "alice" :: List.replicate 7 (.step 0 1700000000) ++
    [.spawn "bob", .step 1 1700000005]

def atOnce : List (Label String Time) :=
  [.spawn "alice", .spawn "bob"] ++ List.replicate 4 (.step 0 1700000000) ++
    List.replicate 4 (.step 1 1700000000) ++ List.replicate 3 (.step 0 1700000001) ++
    List.replicate 3 (.step 1 1700000001)

end Sample

open Sample in
theorem redeemed_once_in_turn :
    ∃ C, (redemptions inviteHash inviteDb inviteToken).run inTurn
        ⟨inviting, []⟩ = some C ∧ joinedSince inviting C.state = [("acme", "alice")] ∧
      (joinedSince inviting C.state).length ≤ 1 := by
  have heval : ∃ C ∈ (redemptions inviteHash inviteDb inviteToken).run
      inTurn ⟨inviting, []⟩,
        joinedSince inviting C.state = [("acme", "alice")] := by
    decide +kernel
  have hcond : (redemptions inviteHash inviteDb inviteToken).Along
      (Unraced (inviteHash inviteToken)) inTurn ⟨inviting, []⟩ := by
    decide +kernel
  obtain ⟨C, hC, hjoined⟩ := heval
  exact ⟨C, hC, hjoined, redeemed_once hcond hC⟩

open Sample in
/-- Two users that read the invite before either marks it both become members. -/
theorem two_join_on_one_invite :
    ((redemptions inviteHash inviteDb inviteToken).run atOnce
        ⟨inviting, []⟩).map (fun C ↦ joinedSince inviting C.state)
      = some [("acme", "alice"), ("acme", "bob")] := by
  decide +kernel

end FusionIdentity
