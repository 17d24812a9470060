import FusionIdentity.Audit.InMemory
import FusionIdentity.Audit.Transactions

/-!
# Reading audit rows back

What the two stores hand to the callers of `list_audit`, and what `_biz_match` and `export_otlp` of
`routes/audit.py` make of it. In memory a record comes back as it was stored. From the database the
`jsonb` column comes as text and the timestamp as a `datetime`, and `PgStore` decodes neither.

`export_otlp` multiplies the timestamp by a number, so it fails on every tenant that has a row, and
the stores agree only where nothing was ever appended (`round_trip_iff_no_calls`).
-/

namespace FusionIdentity.Audit

open Foundation

/-! ## Rows as the callers see them -/

/-- A `detail` value: a decoded document, or text. -/
inductive DetailValue
  | doc (j : Json)
  | text (s : String)
  deriving DecidableEq

structure AuditRow where
  id : ℕ
  seq : ℕ
  tenantId : String
  userId : Option String
  jti : Option String
  role : Option String
  action : String
  resource : Option String
  detail : DetailValue
  ts : Stamp
  deriving DecidableEq

/-- The arguments of `list_audit`. -/
structure AuditQuery where
  limit : ℕ := 100
  since : Option Time := none
  upTo : Option Time := none
  cursor : Option ℕ := none

/-- The rows a query selects, newest first. -/
def selectAudit (rows : List AuditRecord) (tenantId : String) (q : AuditQuery) : List AuditRecord :=
  (((rowsOf tenantId rows).filter fun a ↦
    q.since.all (· ≤ a.fields.ts) && q.upTo.all (a.fields.ts ≤ ·) && q.cursor.all (a.id < ·)
      ).insertionSort fun a b ↦ b.id ≤ a.id).take q.limit

namespace InMemoryStore

/-- A record of the in-memory store is returned as it is. -/
def auditRow (a : AuditRecord) : AuditRow :=
  ⟨a.id, a.seq, a.fields.tenantId, a.fields.userId, a.fields.jti, a.fields.role, a.fields.action,
    a.fields.resource, .doc a.fields.detail, .epoch a.fields.ts⟩

def listAudit (rows : List AuditRecord) (tenantId : String) (q : AuditQuery) : List AuditRow :=
  (selectAudit rows tenantId q).map auditRow

end InMemoryStore

namespace PgStore

variable (jsonb : String → String)

/-- The text of the `detail` column: what PostgreSQL prints for the `jsonb` value of the text that
`append_audit` sent. -/
def detailText (detail : Json) : String := jsonb (detail.dumps true)

/-- A row as the driver returns it. -/
def auditRow (a : AuditRecord) : AuditRow :=
  ⟨a.id, a.seq, a.fields.tenantId, a.fields.userId, a.fields.jti, a.fields.role, a.fields.action,
    a.fields.resource, .text (detailText jsonb a.fields.detail), .datetime a.fields.ts⟩

def listAudit (rows : List AuditRecord) (tenantId : String) (q : AuditQuery) : List AuditRow :=
  (selectAudit rows tenantId q).map (auditRow jsonb)

/-- The fields over which `verify_audit_chain` recomputes a digest: `ts` through `timestamp()`, but
`detail` as the driver returned it, a string. -/
def reread (a : AuditRecord) : AuditRecord :=
  { a with fields := { a.fields with detail := .str (detailText jsonb a.fields.detail) } }

def verifyAuditChain (K : AuditHash) (rows : List AuditRecord) (tenantId : String) : Verdict :=
  checkChain K genesis ((tenantRows rows tenantId).map (reread jsonb))

/-- The rows after a sequence of calls that do not overlap. -/
def appendAudit (K : AuditHash) (rows : List AuditRecord) (e : AuditCall × Time) :
    List AuditRecord :=
  let prev := latestHash rows "_system" e.1.tenantId
  let fields := e.1.fields (roundMicro e.2)
  rows ++ [⟨rows.length + 1, rows.length + 1, fields, chainHash K prev fields, prev⟩]

def auditLog (K : AuditHash) (es : List (AuditCall × Time)) : List AuditRecord :=
  es.foldl (appendAudit K) []

end PgStore

/-! ## The callers -/

/-- Member `name` of an object; `none` when it is missing or when the value is not an object. -/
def memberOf (detail : DetailValue) (name : String) : Option Json :=
  match detail with
  | .doc (.obj members) => (members.find? fun m ↦ m.1 = name).map Prod.snd
  | _ => none

/-- `_biz_match`. A detail that is not an object, or empty, has no source. -/
def bizMatch (a : AuditRow) (actor action objectId traceId : Option String) : Bool :=
  memberOf a.detail "source" = some (.str "business") &&
    actor.all (a.userId = some ·) && action.all (fun s ↦ s.toList <:+ a.action.toList) &&
    objectId.all (a.resource = some ·) &&
    traceId.all fun t ↦ memberOf a.detail "trace_id" = some (.str t)

/-- The `TypeError`s that `export_otlp` can meet. -/
inductive ExportError
  /-- `unsupported operand type(s) for *: 'datetime.datetime' and 'int'`. -/
  | unsupportedOperand
  /-- `unhashable type`, for a severity that is an array or an object. -/
  | unhashable
  deriving DecidableEq

inductive AttributeValue
  | stringValue (s : String)
  | intValue (s : String)
  deriving DecidableEq

structure LogRecord where
  timeUnixNano : String
  severityText : String
  body : String
  attributes : List (String × AttributeValue)
  deriving DecidableEq

/-- `a.get("ts", 0) * 1_000_000_000`, turned into an integer; `nanos` is that product of floats. -/
def timeUnixNano (nanos : Time → ℤ) : Stamp → Except ExportError String
  | .epoch t => .ok (toString (nanos t))
  | .datetime _ => .error .unsupportedOperand

/-- The lookup in `_AUDIT_SEVERITY`. -/
def severityText (detail : DetailValue) : Except ExportError String :=
  match memberOf detail "severity" with
  | some (.arr _) | some (.obj _) => .error .unhashable
  | some (.str s) => .ok (if s ∈ ["ERROR", "FATAL", "WARN"] then s else "INFO")
  | _ => .ok "INFO"

/-- An attribute that is present only when its value is neither missing nor empty. -/
def optionalAttribute (key : String) (value : Option String) : List (String × AttributeValue) :=
  (value.filter (· ≠ "")).toList.map fun s ↦ (key, .stringValue s)

/-- `json.dumps(detail)`. -/
def dumpsDetail : DetailValue → String
  | .doc j => j.dumps true
  | .text s => (Json.str s).dumps true

def attributes (a : AuditRow) : List (String × AttributeValue) :=
  [("tenant.id", .stringValue a.tenantId), ("audit.seq", .intValue (toString a.seq)),
    ("audit.resource", .stringValue (a.resource.getD "")),
    ("audit.role", .stringValue (a.role.getD ""))] ++
    optionalAttribute "user.id" a.userId ++ optionalAttribute "audit.jti" a.jti ++
    (if a.detail = .doc .null then [] else [("audit.detail", .stringValue (dumpsDetail a.detail))])

/-- One turn of the loop of `export_otlp`. -/
def logRecord (nanos : Time → ℤ) (a : AuditRow) : Except ExportError LogRecord := do
  let time ← timeUnixNano nanos a.ts
  let severity ← severityText a.detail
  return ⟨time, severity, a.action, attributes a⟩

/-- The log records of `export_otlp`. -/
def exportOtlp (nanos : Time → ℤ) (rows : List AuditRow) : Except ExportError (List LogRecord) :=
  rows.mapM (logRecord nanos)

/-! ## The round trip -/

variable {K : AuditHash} {jsonb : String → String} {nanos : Time → ℤ}

theorem map_tenantId_auditLog (es : List (AuditCall × Time)) :
    (PgStore.auditLog K es).map (fun a ↦ a.fields.tenantId) = es.map fun e ↦ e.1.tenantId := by
  induction es using List.reverseRecOn with
  | nil => rfl
  | append_singleton es e ih =>
    rw [PgStore.auditLog, List.foldl_append, List.map_append, ← ih]
    simp [PgStore.auditLog, PgStore.appendAudit, AuditCall.fields]

theorem exportOtlp_pg {rows : List AuditRecord} (hrows : rows ≠ []) :
    exportOtlp nanos (rows.map (PgStore.auditRow jsonb)) = .error .unsupportedOperand := by
  obtain ⟨a, rows, rfl⟩ := List.exists_cons_of_ne_nil hrows
  rw [exportOtlp, List.map_cons, List.mapM_cons]
  rfl

/-- On records of the in-memory store the timestamps are never the trouble. -/
theorem exportOtlp_mem (rows : List AuditRecord) :
    exportOtlp nanos (rows.map InMemoryStore.auditRow) ≠ .error .unsupportedOperand := by
  induction rows with
  | nil =>
    intro h
    cases h
  | cons a rows ih =>
    rw [exportOtlp] at ih
    rw [exportOtlp, List.map_cons, List.mapM_cons]
    have hrow : logRecord nanos (InMemoryStore.auditRow a) ≠ .error .unsupportedOperand := by
      intro h
      change (severityText _).bind _ = _ at h
      rw [severityText] at h
      split at h <;> cases h
    intro h
    rcases hfirst : logRecord nanos (InMemoryStore.auditRow a) with err | record
    · rw [hfirst] at hrow h
      cases h
      exact hrow rfl
    · rcases hrest : (rows.map InMemoryStore.auditRow).mapM (logRecord nanos) with err | records
      · rw [hfirst, hrest] at h
        rw [hrest] at ih
        cases h
        exact ih rfl
      · rw [hfirst, hrest] at h
        cases h

/-- What the callers can tell apart. -/
def RoundTrips (K : AuditHash) (jsonb : String → String) (nanos : Time → ℤ)
    (es : List (AuditCall × Time)) : Prop :=
  let pg := PgStore.auditLog K es
  let mem := (AuditLog.run K (es.length + 1) {} es).audit
  (∀ t, (PgStore.verifyAuditChain jsonb K pg t).valid = true) ∧
  ∀ t q,
    exportOtlp nanos (PgStore.listAudit jsonb pg t q) =
      exportOtlp nanos (InMemoryStore.listAudit mem t q) ∧
    ∀ actor action objectId traceId,
      (PgStore.listAudit jsonb pg t q).map (bizMatch · actor action objectId traceId) =
        (InMemoryStore.listAudit mem t q).map (bizMatch · actor action objectId traceId)

theorem selectAudit_ne_nil {rows : List AuditRecord} {t : String}
    (h : t ∈ rows.map fun a ↦ a.fields.tenantId) : selectAudit rows t { limit := 1 } ≠ [] := by
  have hrows : rowsOf t rows ≠ [] := by
    rw [ne_eq, rowsOf_eq_nil_iff, not_not]
    exact h
  intro hnil
  have hlen := congrArg List.length hnil
  simp only [selectAudit, Option.all_none, Bool.and_self, List.filter_true, List.length_take,
    List.length_insertionSort, List.length_nil] at hlen
  have hpos := List.length_pos_iff.mpr hrows
  omega

/-- **The audit rows of the database do not survive the round trip.** Its check and its readers
agree with the in-memory store exactly when nothing was ever appended. -/
theorem round_trip_iff_no_calls (K : AuditHash) (jsonb : String → String) (nanos : Time → ℤ)
    (es : List (AuditCall × Time)) : RoundTrips K jsonb nanos es ↔ es = [] := by
  constructor
  · rintro ⟨-, hlist⟩
    by_contra hne
    obtain ⟨e, es, rfl⟩ := List.exists_cons_of_ne_nil hne
    have hrow : selectAudit (PgStore.auditLog K (e :: es)) e.1.tenantId { limit := 1 } ≠ [] :=
      selectAudit_ne_nil (by rw [map_tenantId_auditLog]; simp)
    have hexport := (hlist e.1.tenantId { limit := 1 }).1
    rw [PgStore.listAudit, exportOtlp_pg hrow] at hexport
    exact exportOtlp_mem _ hexport.symm
  · rintro rfl
    have hnone (t : String) (q : AuditQuery) : selectAudit [] t q = [] := List.take_nil
    refine ⟨fun _ ↦ rfl, fun t q ↦ ?_⟩
    change exportOtlp nanos ((selectAudit [] t q).map _) =
      exportOtlp nanos ((selectAudit [] t q).map _) ∧
      ∀ _ _ _ _, List.map _ ((selectAudit [] t q).map _) = List.map _ ((selectAudit [] t q).map _)
    rw [hnone]
    exact ⟨rfl, fun _ _ _ _ ↦ rfl⟩

namespace Sample

def businessCall : AuditCall where
  tenantId := "acme"
  userId := some "exam"
  jti := none
  role := some "service"
  action := "external.submit"
  resource := some "paper-7"
  detail := .obj [("source", .str "business"), ("trace_id", .str "t-1")]

def businessText : String := "\x7b\"source\": \"business\", \"trace_id\": \"t-1\"\x7d"

/-- The digests of the event and of the event with its detail as text. -/
def businessHash : AuditHash where
  sha256 s :=
    if s = genesis ++ ((businessCall.fields 1700000000).toJson .fraction).canonical.dumps false then
      "8b1ca17f33367b615948467934b463084b5dc14882a884dba27e5af14830b2e3"
    else if s = genesis ++ (({ businessCall with detail := .str businessText }.fields
        1700000000).toJson .fraction).canonical.dumps false then
      "582e29b8f74b89762ca26b8b95beff1437c97044f8e4a23f9787865a80c633f5"
    else ""
  floats := .fraction

/-- PostgreSQL prints this `jsonb` value as it was sent. -/
example : businessCall.detail.dumps true = businessText := by decide +kernel

end Sample

open Audit.Sample in
/-- One business event: the check of the database reports it, the export fails, and a search for its
trace id does not find it. In memory the export succeeds and the search finds it. -/
theorem business_event_lost :
    let es := [(businessCall, (1700000000 : Time))]
    let pg := PgStore.auditLog businessHash es
    let mem := (AuditLog.run businessHash (es.length + 1) {} es).audit
    let nanos : Time → ℤ := fun t ↦ ⌊t * 10 ^ 9⌋
    let search : AuditRow → Bool := (bizMatch · none none none (some "t-1"))
    PgStore.verifyAuditChain id businessHash pg "acme" = ⟨false, some 1⟩ ∧
      verifyAuditChain businessHash mem "acme" = ⟨true, none⟩ ∧
      exportOtlp nanos (PgStore.listAudit id pg "acme" {}) = .error .unsupportedOperand ∧
      (exportOtlp nanos (InMemoryStore.listAudit mem "acme" {})).isOk = true ∧
      (PgStore.listAudit id pg "acme" {}).map search = [false] ∧
      (InMemoryStore.listAudit mem "acme" {}).map search = [true] := by
  decide +kernel

end FusionIdentity.Audit
