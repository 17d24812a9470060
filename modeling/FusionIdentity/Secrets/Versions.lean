import FusionIdentity.Foundation.Dict
import Mathlib.Data.Finset.Card

/-!
# The versions of an application secret

`issue_app_secret` is one READ COMMITTED transaction of four statements: it numbers the new version,
reads the current one, demotes that one by its id and inserts the new row. Each read has its own
snapshot, so other requests may commit between any two of them; what holds the table together is the
unique index on `(app_id, version)`, which lets an issuer commit only if nobody else did since it
read its number. Nothing of the kind protects a revocation.
-/

namespace FusionIdentity

open Foundation

inductive SecretStatus
  | current
  | grace
  | revoked
  deriving DecidableEq

/-- A row of `app_secrets`. -/
structure AppSecret where
  secretId : String
  appId : String
  version : ℕ
  status : SecretStatus
  deriving DecidableEq

/-- Both unique indexes of the table: the primary key and `uq_app_secrets_app_version`. -/
def AppSecret.clashes (a b : AppSecret) : Bool :=
  a.secretId = b.secretId ∨ a.appId = b.appId ∧ a.version = b.version

theorem AppSecret.clashes_comm (a b : AppSecret) : a.clashes b = b.clashes a := by
  simp only [AppSecret.clashes, eq_comm]

/-- How far an issue or rotate request has come; `prev` is the id it read as the current one. -/
inductive IssueStage
  | checked
  | numbered (version : ℕ)
  | looked (version : ℕ) (prev : Option String)
  | demoted (version : ℕ) (prev : Option String)
  | inserted (version : ℕ) (prev : Option String)
  deriving DecidableEq

namespace IssueStage

def version : IssueStage → Option ℕ
  | checked => none
  | numbered v | looked v _ | demoted v _ | inserted v _ => some v

/-- The row the request takes for the current one, once it has looked. -/
def read : IssueStage → Option (Option String)
  | looked _ prev | demoted _ prev | inserted _ prev => some prev
  | _ => none

/-- The row the request has read and is yet to demote. -/
def demoting : IssueStage → Option String
  | looked _ prev => prev
  | _ => none

/-- The row lock that the demotion took, held until the transaction ends. -/
def lock : IssueStage → Option String
  | demoted _ prev | inserted _ prev => prev
  | _ => none

end IssueStage

structure SecretIssue where
  appId : String
  secretId : String
  stage : IssueStage

/-- The row the request inserts. -/
def SecretIssue.row (i : SecretIssue) (version : ℕ) : AppSecret :=
  ⟨i.secretId, i.appId, version, .current⟩

/-- The inserted row that is not committed yet. -/
def SecretIssue.pending (i : SecretIssue) : Option AppSecret :=
  match i.stage with
  | .inserted v _ => some (i.row v)
  | _ => none

/-- The committed rows, in commit order, and the requests under way. -/
structure SecretTable where
  rows : List AppSecret := []
  issues : Dict ℕ SecretIssue := ∅

inductive SecretStep
  /-- The look-up with which the issue route, or the rotate route, starts. -/
  | arrive (t : ℕ) (rotate : Bool) (appId secretId : String)
  /-- The next statement of request `t`. -/
  | advance (t : ℕ)
  /-- The transaction of `t` is lost. -/
  | abort (t : ℕ)
  | revoke (appId : String) (version : ℕ)

namespace SecretTable

def versions (rows : List AppSecret) (app : String) : List ℕ :=
  (rows.filter (·.appId = app)).map (·.version)

/-- `SELECT COALESCE(MAX(version), 0) + 1`. -/
def nextVersion (s : SecretTable) (app : String) : ℕ := (versions s.rows app).max?.getD 0 + 1

def currentOf (s : SecretTable) (app : String) : Option AppSecret :=
  s.rows.find? fun r ↦ r.appId = app ∧ r.status = .current

def locked (s : SecretTable) (id : String) : Bool :=
  s.issues.values.any fun i ↦ i.stage.lock = some id

def moved (s : SecretTable) (t : ℕ) (i : SecretIssue) (stage : IssueStage) : SecretTable :=
  { s with issues := s.issues.set t { i with stage } }

def close (s : SecretTable) (t : ℕ) : SecretTable := { s with issues := s.issues.pop t }

/-- An `UPDATE` that sets the status. -/
def update (s : SecretTable) (status : AppSecret → SecretStatus) : SecretTable :=
  { s with rows := s.rows.map fun r ↦ { r with status := status r } }

def append (s : SecretTable) (a : AppSecret) : SecretTable := { s with rows := s.rows ++ [a] }

/-- `SET status='grace' WHERE secret_id=prev`. -/
def demote (prev : Option String) (r : AppSecret) : SecretStatus :=
  if prev = some r.secretId then .grace else r.status

def revokeRow (app : String) (v : ℕ) (r : AppSecret) : SecretStatus :=
  if r.appId = app ∧ r.version = v then .revoked else r.status

/-- The next statement of request `t`, which does nothing while it waits for a lock. -/
def advance (s : SecretTable) (t : ℕ) (i : SecretIssue) : SecretTable :=
  match i.stage with
  | .checked => s.moved t i (.numbered (s.nextVersion i.appId))
  | .numbered v => s.moved t i (.looked v ((s.currentOf i.appId).map (·.secretId)))
  | .looked v prev => if prev.any s.locked then s else s.moved t i (.demoted v prev)
  | .demoted v prev =>
    if s.issues.values.any fun j ↦ j.pending.any (·.clashes (i.row v)) then s
    -- a unique violation fails the transaction as a whole
    else if s.rows.any (·.clashes (i.row v)) then s.close t
    else s.moved t i (.inserted v prev)
  -- the commit makes the demotion and the new row visible together
  | .inserted v prev => ((s.close t).update (demote prev)).append (i.row v)

/-- A rotation needs some version, a first issue that none is current. -/
def admissible (s : SecretTable) (rotate : Bool) (app : String) : Bool :=
  if rotate then s.rows.any (·.appId = app) else (s.currentOf app).isNone

def step (s : SecretTable) : SecretStep → SecretTable
  | .arrive t rotate app id =>
    if (s.issues.get? t).isNone ∧ s.admissible rotate app
    then { s with issues := s.issues.set t ⟨app, id, .checked⟩ } else s
  | .advance t => ((s.issues.get? t).map (s.advance t)).getD s
  | .abort t => s.close t
  | .revoke app v =>
    if s.rows.any fun r ↦ r.appId = app ∧ r.version = v ∧ s.locked r.secretId then s
    else s.update (revokeRow app v)

def run (s : SecretTable) (steps : List SecretStep) : SecretTable := steps.foldl step s

/-! ## The invariant -/

/-- How many versions the application has. -/
def count (rows : List AppSecret) (app : String) : ℕ := (versions rows app).length

/-- Where an open request stands towards the committed rows. As long as nobody has taken its number,
the row it read is the only one that can be current. -/
structure Follows (rows : List AppSecret) (i : SecretIssue) : Prop where
  bound : ∀ v, i.stage.version = some v → 1 ≤ v ∧ v ≤ count rows i.appId + 1
  covers : i.stage.version = some (count rows i.appId + 1) → ∀ prev, i.stage.read = some prev →
    ∀ r ∈ rows, r.appId = i.appId → r.status = .current → prev = some r.secretId
  fresh : ∀ a, i.pending = some a →
    a.version = count rows i.appId + 1 ∧ ∀ r ∈ rows, r.secretId ≠ a.secretId

structure Sound (s : SecretTable) : Prop where
  numbered : ∀ app, versions s.rows app = List.range' 1 (count s.rows app)
  ids : (s.rows.map (·.secretId)).Nodup
  one : ∀ a ∈ s.rows, ∀ b ∈ s.rows, a.status = .current → b.status = .current →
    a.appId = b.appId → a = b
  issue : ∀ t i, s.issues.get? t = some i → Follows s.rows i
  apart : ∀ t i a t' j b, s.issues.get? t = some i → i.pending = some a →
    s.issues.get? t' = some j → j.pending = some b → t ≠ t' → ¬a.clashes b

namespace Sound

variable {s : SecretTable} {t : ℕ} {i : SecretIssue} {f : AppSecret → SecretStatus} {a : AppSecret}

theorem nextVersion_eq (h : s.Sound) (app : String) :
    s.nextVersion app = count s.rows app + 1 := by
  rw [nextVersion, h.numbered app]
  cases count s.rows app with
  | zero => rfl
  | succ n =>
    have hmax : (List.range' 1 (n + 1)).max? = some (n + 1) := by
      rw [List.max?_eq_some_iff]
      simp only [List.mem_range'_1]
      exact ⟨by omega, fun b hb ↦ by omega⟩
    rw [hmax, Option.getD_some]

theorem version_inj (h : s.Sound) {r x : AppSecret} (hr : r ∈ s.rows) (hx : x ∈ s.rows)
    (happ : r.appId = x.appId) (hv : r.version = x.version) : r = x := by
  have hnodup : (versions s.rows x.appId).Nodup := by
    rw [h.numbered]
    exact List.nodup_range'
  exact List.inj_on_of_nodup_map hnodup (List.mem_filter.mpr ⟨hr, by simpa using happ⟩)
    (List.mem_filter.mpr ⟨hx, by simp⟩) hv

/-- An open request may move on to any stage that follows the rows. -/
theorem moved (h : s.Sound) {i' : SecretIssue} (hi : Follows s.rows i')
    (hapart : ∀ a t' j b, i'.pending = some a → s.issues.get? t' = some j → j.pending = some b →
      t ≠ t' → ¬a.clashes b) : ({ s with issues := s.issues.set t i' } : SecretTable).Sound where
  numbered := h.numbered
  ids := h.ids
  one := h.one
  issue t' j hj := by
    simp only [Dict.get?_set] at hj
    split_ifs at hj with ht
    · exact Option.some.inj hj ▸ hi
    · exact h.issue t' j hj
  apart t₁ i₁ a t₂ i₂ b h₁ ha h₂ hb hne := by
    simp only [Dict.get?_set] at h₁ h₂
    split_ifs at h₁ h₂ with h1 h2 h2
    · exact absurd (h1.trans h2.symm) hne
    · cases h₁
      exact hapart a t₂ i₂ b ha h₂ hb (h1 ▸ hne)
    · cases h₂
      rw [AppSecret.clashes_comm]
      exact hapart b t₁ i₁ a hb h₁ ha (h2 ▸ hne.symm)
    · exact h.apart t₁ i₁ a t₂ i₂ b h₁ ha h₂ hb hne

theorem close (h : s.Sound) (t : ℕ) : (s.close t).Sound := by
  have hsub : ∀ t' j, (s.close t).issues.get? t' = some j → s.issues.get? t' = some j := by
    intro t' j hj
    simp only [SecretTable.close, Dict.get?_pop] at hj
    split_ifs at hj
    exact hj
  exact ⟨h.numbered, h.ids, h.one, fun t' j hj ↦ h.issue t' j (hsub t' j hj),
    fun t₁ i₁ a t₂ i₂ b h₁ ha h₂ hb hne ↦
      h.apart t₁ i₁ a t₂ i₂ b (hsub _ _ h₁) ha (hsub _ _ h₂) hb hne⟩

theorem versions_update (s : SecretTable) (f : AppSecret → SecretStatus) :
    versions (s.update f).rows = versions s.rows := by
  funext app
  simp [versions, SecretTable.update, List.filter_map, Function.comp_def]

/-- An `UPDATE` that makes nothing current. -/
theorem update (h : s.Sound) (hf : ∀ r, f r = .current → r.status = .current) :
    (s.update f).Sound := by
  have hcount : count (s.update f).rows = count s.rows := by
    funext app
    rw [count, versions_update, count]
  refine ⟨fun app ↦ ?_, ?_, ?_, fun t i hi ↦ ?_, h.apart⟩
  · rw [versions_update, hcount, h.numbered app]
  · simpa [SecretTable.update, Function.comp_def] using h.ids
  · simp only [SecretTable.update, List.mem_map]
    rintro _ ⟨r, hr, rfl⟩ _ ⟨x, hx, rfl⟩ hcr hcx hsame
    rw [h.one r hr x hx (hf r hcr) (hf x hcx) hsame]
  · have hfol := h.issue t i hi
    refine ⟨hcount ▸ hfol.bound, fun hv prev hread r hr ↦ ?_, fun a ha ↦ ?_⟩
    · obtain ⟨x, hx, rfl⟩ := List.mem_map.mp hr
      exact fun hra hrc ↦ hfol.covers (hcount ▸ hv) prev hread x hx hra (hf x hrc)
    · refine ⟨hcount ▸ (hfol.fresh a ha).1, fun r hr ↦ ?_⟩
      obtain ⟨x, hx, rfl⟩ := List.mem_map.mp hr
      exact (hfol.fresh a ha).2 x hx

theorem versions_append (s : SecretTable) (a : AppSecret) (app : String) :
    versions (s.append a).rows app =
      versions s.rows app ++ if a.appId = app then [a.version] else [] := by
  by_cases happ : a.appId = app <;>
    simp [versions, SecretTable.append, List.filter_append, happ]

theorem count_append (s : SecretTable) (a : AppSecret) (app : String) :
    count (s.append a).rows app = count s.rows app + if a.appId = app then 1 else 0 := by
  rw [count, versions_append, List.length_append, ← count]
  split_ifs <;> rfl

/-- A new row leaves the requests of other applications alone, and takes the number of those of its
own. -/
theorem follows_append (hi : Follows s.rows i) (hv : a.version = count s.rows a.appId + 1)
    (hapart : ∀ b, i.pending = some b → ¬a.clashes b) : Follows (s.append a).rows i := by
  refine ⟨fun v hst ↦ ?_, fun hvv prev hread r hr ↦ ?_, fun b hb ↦ ?_⟩
  · rw [count_append]
    exact (hi.bound v hst).imp_right fun hb ↦ by omega
  · have hother : a.appId ≠ i.appId := by
      intro happ
      have := (hi.bound _ hvv).2
      rw [count_append, if_pos happ] at this
      omega
    rw [count_append, if_neg hother] at hvv
    rcases List.mem_append.mp hr with hr | hr
    · exact hi.covers hvv prev hread r hr
    · exact fun hra ↦ absurd (List.mem_singleton.mp hr ▸ hra) hother
  · have hclash := hapart b hb
    simp only [AppSecret.clashes, decide_eq_true_eq, not_or, not_and] at hclash
    have hbi : b.appId = i.appId := by
      rw [SecretIssue.pending] at hb
      split at hb <;> cases hb
      rfl
    have hother : a.appId ≠ i.appId := fun happ ↦
      hclash.2 (happ.trans hbi.symm) (by rw [hv, (hi.fresh b hb).1, happ])
    rw [count_append, if_neg hother]
    refine ⟨(hi.fresh b hb).1, fun r hr ↦ ?_⟩
    rcases List.mem_append.mp hr with hr | hr
    · exact (hi.fresh b hb).2 r hr
    · exact List.mem_singleton.mp hr ▸ hclash.1

theorem append (h : s.Sound) (hv : a.version = count s.rows a.appId + 1)
    (hid : ∀ r ∈ s.rows, r.secretId ≠ a.secretId)
    (hlone : ∀ r ∈ s.rows, r.appId = a.appId → r.status ≠ .current)
    (hapart : ∀ t j b, s.issues.get? t = some j → j.pending = some b → ¬a.clashes b) :
    (s.append a).Sound := by
  refine ⟨fun app ↦ ?_, ?_, ?_,
    fun t i hi ↦ follows_append (h.issue t i hi) hv (hapart t i · hi), h.apart⟩
  · rw [versions_append, count_append, h.numbered app]
    split_ifs with happ
    · rw [List.range'_concat, ← happ, hv]
      simp [Nat.add_comm]
    · simp
  · simpa [SecretTable.append, List.nodup_append, h.ids] using hid
  · simp only [SecretTable.append, List.mem_append, List.mem_singleton]
    rintro r (hr | rfl) x (hx | rfl) hcr hcx hsame
    · exact h.one r hr x hx hcr hcx hsame
    · exact absurd hcr (hlone r hr hsame)
    · exact absurd hcx (hlone x hx hsame.symm)
    · rfl

/-- The snapshot of the second statement has at most one current row to read. -/
theorem covers_currentOf (h : s.Sound) {r : AppSecret} (hr : r ∈ s.rows)
    (hcur : r.status = .current) :
    (s.currentOf r.appId).map (·.secretId) = some r.secretId := by
  cases hfind : s.currentOf r.appId with
  | none =>
    have := List.find?_eq_none.mp hfind r hr
    simp [hcur] at this
  | some c =>
    have hc := List.find?_some hfind
    simp only [Bool.decide_and, Bool.and_eq_true, decide_eq_true_eq] at hc
    rw [h.one r hr c (List.mem_of_find?_eq_some hfind) hcur hc.2 hc.1.symm]
    rfl

/-- The `INSERT` of a request that no row clashes with, committed or not. -/
theorem insert {v : ℕ} {prev : Option String} (h : s.Sound) (hi : s.issues.get? t = some i)
    (hst : i.stage = .demoted v prev) (hrow : ∀ r ∈ s.rows, ¬r.clashes (i.row v))
    (hwait : ∀ j ∈ s.issues.values, ¬j.pending.any (·.clashes (i.row v))) :
    (s.moved t i (.inserted v prev)).Sound := by
  have hfol := h.issue t i hi
  -- every smaller number is taken
  have hv : v = count s.rows i.appId + 1 := by
    by_contra hne
    have hb := hfol.bound v (hst ▸ rfl)
    have hmem : v ∈ versions s.rows i.appId := by
      rw [h.numbered, List.mem_range'_1]
      omega
    obtain ⟨r, hr, rfl⟩ := List.mem_map.mp hmem
    have hr := List.mem_filter.mp hr
    have := hrow r hr.1
    simp_all [AppSecret.clashes, SecretIssue.row]
  have hpend : ∀ {a}, ({ i with stage := .inserted v prev } : SecretIssue).pending = some a →
      a = i.row v := fun ha ↦ (Option.some.inj ha).symm
  refine h.moved ⟨fun v' hv ↦ hfol.bound v' (hst ▸ hv),
    fun hv prev' hread ↦ hfol.covers (hst ▸ hv) prev' (hst ▸ hread), fun a ha ↦ ?_⟩ ?_
  · rw [hpend ha]
    refine ⟨hv, fun r hr ↦ ?_⟩
    have := hrow r hr
    simp_all [AppSecret.clashes]
  · intro a t' j b ha hj hb _ hclash
    have := hwait j (Dict.mem_values_iff.mpr ⟨t', hj⟩)
    rw [hb, Option.any_some, AppSecret.clashes_comm, ← hpend ha] at this
    exact this hclash

/-- The commit. The row that is demoted is the only one that can be current. -/
theorem commit {v : ℕ} {prev : Option String} (h : s.Sound) (hi : s.issues.get? t = some i)
    (hst : i.stage = .inserted v prev) :
    (((s.close t).update (demote prev)).append (i.row v)).Sound := by
  have hfol := h.issue t i hi
  have hpend : i.pending = some (i.row v) := by rw [SecretIssue.pending, hst]
  obtain ⟨hv, hid⟩ := hfol.fresh _ hpend
  have hdim : ((s.close t).update (demote prev)).Sound := (h.close t).update fun r hr ↦ by
    rw [demote] at hr
    split_ifs at hr
    exact hr
  refine hdim.append ?_ (fun r hr ↦ ?_) (fun r hr hra ↦ ?_) fun t' j b hj hb ↦ ?_
  · rw [count, versions_update]
    exact hv
  · obtain ⟨x, hx, rfl⟩ := List.mem_map.mp hr
    exact hid x hx
  · obtain ⟨x, hx, rfl⟩ := List.mem_map.mp hr
    change demote prev x ≠ .current
    rw [demote]
    split_ifs with hp
    · simp
    · exact fun hcur ↦ hp (hfol.covers (hst ▸ congrArg some hv) prev (hst ▸ rfl) x hx hra hcur)
  · simp only [SecretTable.update, SecretTable.close, Dict.get?_pop] at hj
    split_ifs at hj with ht
    exact h.apart t i _ t' j b hi hpend hj hb (Ne.symm ht)

/-- One statement of an open request. -/
theorem advance (h : s.Sound) (hi : s.issues.get? t = some i) : (s.advance t i).Sound := by
  have hfol := h.issue t i hi
  rw [SecretTable.advance]
  split
  case h_1 hst =>
    refine h.moved ⟨fun v hv ↦ ?_, by simp [IssueStage.read], by simp [SecretIssue.pending]⟩
      (by simp [SecretIssue.pending])
    cases hv
    rw [h.nextVersion_eq]
    dsimp only
    omega
  case h_2 v hst =>
    refine h.moved ⟨fun v' hv ↦ hfol.bound v' (hst ▸ hv), fun _ prev hread r hr hra hrc ↦ ?_,
      by simp [SecretIssue.pending]⟩ (by simp [SecretIssue.pending])
    cases hread
    rw [← hra]
    exact h.covers_currentOf hr hrc
  case h_3 v prev hst =>
    split_ifs
    · exact h
    · exact h.moved ⟨fun v' hv ↦ hfol.bound v' (hst ▸ hv),
        fun hv prev' hread ↦ hfol.covers (hst ▸ hv) prev' (hst ▸ hread),
        by simp [SecretIssue.pending]⟩ (by simp [SecretIssue.pending])
  case h_4 v prev hst =>
    split_ifs with hwait hrow
    · exact h
    · exact h.close t
    · simp only [List.any_eq_true, not_exists, not_and] at hwait hrow
      exact h.insert hi hst hrow hwait
  case h_5 v prev hst => exact h.commit hi hst

theorem step (h : s.Sound) (a : SecretStep) : (s.step a).Sound := by
  cases a with
  | arrive t rotate app id =>
    rw [SecretTable.step]
    split_ifs
    · exact h.moved ⟨by simp [IssueStage.version], by simp [IssueStage.read],
        by simp [SecretIssue.pending]⟩ (by simp [SecretIssue.pending])
    · exact h
  | advance t =>
    rw [SecretTable.step]
    cases hi : s.issues.get? t with
    | none => exact h
    | some i => exact h.advance hi
  | abort t => exact h.close t
  | revoke app v =>
    rw [SecretTable.step]
    split_ifs
    · exact h
    · refine h.update fun r hr ↦ ?_
      rw [revokeRow] at hr
      split_ifs at hr
      exact hr

theorem run (h : s.Sound) (steps : List SecretStep) : (s.run steps).Sound := by
  induction steps generalizing s with
  | nil => exact h
  | cons a steps ih => exact ih (h.step a)

theorem start : ({} : SecretTable).Sound :=
  ⟨fun _ ↦ rfl, List.nodup_nil, by simp, by simp, by simp⟩

end Sound

end SecretTable

/-- However issue, rotate and revoke requests interleave, an application has at most one current
version, and its versions are distinct and increase in commit order. -/
theorem one_current_version (steps : List SecretStep) (app : String) :
    (((({} : SecretTable).run steps).rows.filter fun r ↦
        r.appId = app ∧ r.status = .current).length ≤ 1) ∧
      (SecretTable.versions (({} : SecretTable).run steps).rows app).Nodup ∧
      (SecretTable.versions (({} : SecretTable).run steps).rows app).Pairwise (· < ·) := by
  have h := SecretTable.Sound.start.run steps
  refine ⟨?_, ?_, ?_⟩
  · have hnodup := (List.Nodup.of_map _ h.ids).filter fun r ↦ r.appId = app ∧ r.status = .current
    rw [← List.toFinset_card_of_nodup hnodup, Finset.card_le_one]
    intro a ha b hb
    simp only [List.mem_toFinset, List.mem_filter, decide_eq_true_eq] at ha hb
    exact h.one a ha.1 b hb.1 ha.2.2 hb.2.2 (ha.2.1.trans hb.2.1.symm)
  · rw [h.numbered]
    exact List.nodup_range'
  · rw [h.numbered]
    exact List.pairwise_lt_range'

namespace SecretTable

/-- The `DELETE` of version `v` returns at once: its row is there and nobody holds its lock. -/
def revocable (s : SecretTable) (app : String) (v : ℕ) : Prop :=
  ∃ r ∈ s.rows, r.appId = app ∧ r.version = v ∧ s.locked r.secretId = false

/-- No request has read as current, and is yet to demote, the version this step revokes. -/
def uncrossed (s : SecretTable) : SecretStep → Bool
  | .revoke app v => s.rows.all fun r ↦ r.appId = app → r.version = v →
      s.issues.values.all fun i ↦ i.stage.demoting ≠ some r.secretId
  | _ => true

def Uncrossed : SecretTable → List SecretStep → Bool
  | _, [] => true
  | s, a :: steps => s.uncrossed a && Uncrossed (s.step a) steps

/-- Row `x` is revoked, and no open request has read it as the current one. -/
structure Buried (s : SecretTable) (x : AppSecret) : Prop where
  row : x ∈ s.rows
  revoked : x.status = .revoked
  unread : ∀ t i, s.issues.get? t = some i → i.stage.read ≠ some (some x.secretId)

namespace Buried

variable {s : SecretTable} {x : AppSecret} {t : ℕ} {i : SecretIssue}

theorem moved (h : s.Buried x) {i' : SecretIssue} (hi : i'.stage.read ≠ some (some x.secretId)) :
    ({ s with issues := s.issues.set t i' } : SecretTable).Buried x where
  row := h.row
  revoked := h.revoked
  unread t' j hj := by
    simp only [Dict.get?_set] at hj
    split_ifs at hj
    · exact Option.some.inj hj ▸ hi
    · exact h.unread t' j hj

theorem close (h : s.Buried x) (t : ℕ) : (s.close t).Buried x where
  row := h.row
  revoked := h.revoked
  unread t' j hj := by
    simp only [SecretTable.close, Dict.get?_pop] at hj
    split_ifs at hj
    exact h.unread t' j hj

/-- An `UPDATE` that leaves the row revoked. -/
theorem update (h : s.Buried x) {f : AppSecret → SecretStatus} (hf : f x = .revoked) :
    (s.update f).Buried x where
  row := List.mem_map.mpr ⟨x, h.row, by rw [hf, ← h.revoked]⟩
  revoked := h.revoked
  unread := h.unread

theorem advance (hs : s.Sound) (h : s.Buried x) (hi : s.issues.get? t = some i) :
    (s.advance t i).Buried x := by
  have hold := h.unread t i hi
  rw [SecretTable.advance]
  split
  case h_1 => exact h.moved (by simp [IssueStage.read])
  case h_2 v hst =>
    refine h.moved fun hread ↦ ?_
    -- ids are unique, and the row that was read is current
    obtain ⟨c, hc, hid⟩ := Option.map_eq_some_iff.mp (Option.some.inj hread)
    have hcx : c = x := List.inj_on_of_nodup_map hs.ids (List.mem_of_find?_eq_some hc) h.row hid
    have hcur := List.find?_some hc
    simp [hcx, h.revoked] at hcur
  case h_3 v prev hst =>
    split_ifs
    · exact h
    · exact h.moved fun hread ↦ hold (hst ▸ hread)
  case h_4 v prev hst =>
    split_ifs
    · exact h
    · exact h.close t
    · exact h.moved fun hread ↦ hold (hst ▸ hread)
  case h_5 v prev hst =>
    have hprev : prev ≠ some x.secretId := fun hp ↦ hold (by rw [hst, hp]; rfl)
    have hdim := (h.close t).update (f := demote prev) (by rw [demote, if_neg hprev, h.revoked])
    exact ⟨List.mem_append_left _ hdim.row, h.revoked, hdim.unread⟩

theorem step (hs : s.Sound) (h : s.Buried x) (a : SecretStep) : (s.step a).Buried x := by
  cases a with
  | arrive t rotate app id =>
    rw [SecretTable.step]
    split_ifs
    · exact h.moved (by simp [IssueStage.read])
    · exact h
  | advance t =>
    rw [SecretTable.step]
    cases hi : s.issues.get? t with
    | none => exact h
    | some i => exact h.advance hs hi
  | abort t => exact h.close t
  | revoke app v =>
    rw [SecretTable.step]
    split_ifs
    · exact h
    · refine h.update ?_
      rw [revokeRow, h.revoked, ite_self]

theorem run (hs : s.Sound) (h : s.Buried x) (steps : List SecretStep) :
    (s.run steps).Buried x := by
  induction steps generalizing s with
  | nil => exact h
  | cons a steps ih => exact ih (hs.step a) (h.step hs a)

/-- A revocation that crosses no demotion buries its row. -/
theorem of_revoke {app : String} {v : ℕ} (hs : s.Sound) (hret : s.revocable app v)
    (hun : s.uncrossed (.revoke app v)) :
    ∃ x, (s.step (.revoke app v)).Buried x ∧ x.appId = app ∧ x.version = v := by
  obtain ⟨r, hr, happ, hv, hfree⟩ := hret
  have hwait : ¬s.rows.any fun r ↦ r.appId = app ∧ r.version = v ∧ s.locked r.secretId := by
    simp only [List.any_eq_true, decide_eq_true_eq, not_exists, not_and]
    intro r' hr' happ' hv' hlock
    rw [hs.version_inj hr' hr (happ'.trans happ.symm) (hv'.trans hv.symm), hfree] at hlock
    cases hlock
  rw [SecretTable.step, if_neg hwait]
  refine ⟨{ r with status := .revoked }, ⟨List.mem_map.mpr ⟨r, hr, ?_⟩, rfl, ?_⟩, happ, hv⟩
  · rw [revokeRow, if_pos ⟨happ, hv⟩]
  · intro t i hi hread
    have hlock : i.stage.lock ≠ some r.secretId := fun hl ↦ by
      have : s.locked r.secretId = true :=
        List.any_eq_true.mpr ⟨i, Dict.mem_values_iff.mpr ⟨t, hi⟩, by simpa using hl⟩
      rw [hfree] at this
      cases this
    have hlooked : i.stage.demoting ≠ some r.secretId := by
      have := of_decide_eq_true (List.all_eq_true.mp hun r hr) happ hv
      simpa using List.all_eq_true.mp this i (Dict.mem_values_iff.mpr ⟨t, hi⟩)
    cases hst : i.stage <;> simp_all [IssueStage.read, IssueStage.lock, IssueStage.demoting]

end Buried

theorem uncrossed_drop {s : SecretTable} {steps rest : List SecretStep}
    (h : s.Uncrossed (steps ++ rest)) : (s.run steps).Uncrossed rest := by
  induction steps generalizing s with
  | nil => exact h
  | cons a steps ih =>
    rw [List.cons_append, Uncrossed, Bool.and_eq_true] at h
    exact ih h.2

end SecretTable

/-- In a run where no revocation falls between the read and the demotion of its version, a version
whose revocation has returned stays revoked. -/
theorem revoked_version_is_final {steps rest : List SecretStep} {app : String} {v : ℕ}
    (hrun : ({} : SecretTable).Uncrossed (steps ++ .revoke app v :: rest))
    (hret : (({} : SecretTable).run steps).revocable app v) :
    ∀ r ∈ (({} : SecretTable).run (steps ++ .revoke app v :: rest)).rows,
      r.appId = app → r.version = v → r.status = .revoked := by
  have hs := SecretTable.Sound.start.run steps
  have hrest := SecretTable.uncrossed_drop hrun
  rw [SecretTable.Uncrossed, Bool.and_eq_true] at hrest
  obtain ⟨x, hx, happ, hv⟩ := SecretTable.Buried.of_revoke hs hret hrest.1
  have hend := hx.run (hs.step _) rest
  have hends := (hs.step (.revoke app v)).run rest
  rw [SecretTable.run, List.foldl_append, List.foldl_cons]
  intro r hr hra hrv
  rw [hends.version_inj hr hend.row (hra.trans happ.symm) (hrv.trans hv.symm)]
  exact hend.revoked

namespace Sample

/-- The first version of an application is issued. -/
def firstSecret : List SecretStep :=
  .arrive 0 false "billing" "sec_0a1b2c3d4e5f" :: List.replicate 5 (.advance 0)

/-- A rotation, up to the read of the current version. -/
def rotationRead : List SecretStep :=
  .arrive 1 true "billing" "sec_6a7b8c9d0e1f" :: List.replicate 2 (.advance 1)

end Sample

theorem revoked_version_is_final_billing :
    (({} : SecretTable).run Sample.firstSecret).revocable "billing" 1 ∧
      ∀ r ∈ (({} : SecretTable).run (Sample.firstSecret ++ .revoke "billing" 1 ::
          (Sample.rotationRead ++ List.replicate 3 (.advance 1)))).rows,
        r.appId = "billing" → r.version = 1 → r.status = .revoked := by
  have hret : (({} : SecretTable).run Sample.firstSecret).revocable "billing" 1 :=
    ⟨⟨"sec_0a1b2c3d4e5f", "billing", 1, .current⟩, by decide⟩
  exact ⟨hret, revoked_version_is_final (by decide) hret⟩

/-- The rotation that read version 1 as current puts it back into its grace window after its
revocation has returned. -/
theorem rotation_undoes_revocation :
    (({} : SecretTable).run (Sample.firstSecret ++ Sample.rotationRead)).revocable "billing" 1 ∧
      ⟨"sec_0a1b2c3d4e5f", "billing", 1, .grace⟩ ∈ (({} : SecretTable).run (Sample.firstSecret ++
        Sample.rotationRead ++ .revoke "billing" 1 :: List.replicate 3 (.advance 1))).rows :=
  ⟨⟨⟨"sec_0a1b2c3d4e5f", "billing", 1, .current⟩, by decide⟩, by decide⟩

end FusionIdentity
