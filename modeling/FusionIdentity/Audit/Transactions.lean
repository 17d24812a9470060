import FusionIdentity.Audit.Chain
import Mathlib.Data.List.MinMax

/-!
# Audit transactions

`PgStore.append_audit` statement by statement, run by any number of workers against one database. A
worker begins a transaction, takes the advisory lock of the tenant's hash, reads the tenant's latest
digest, draws a sequence number, inserts its row under an id from a second sequence, and commits; it
may abort wherever it stands. A row is visible to the others from its commit on, which also gives
the lock back. A statement sees the rows that its session's scope admits, and an insert outside is
refused.

The invariant says what a worker that holds the lock of a tenant knows: the digest it has read is
still the last one, and its numbers are larger than those of all the tenant's rows (`AuditDb.Inv`).
-/

namespace FusionIdentity.Audit

open Foundation

/-! ## The database -/

/-- How far a worker's transaction has come. -/
inductive Txn
  | idle
  | begun (scope : String) (e : AuditCall)
  | locked (scope : String) (e : AuditCall)
  | read (scope : String) (e : AuditCall) (prev : String)
  | numbered (scope : String) (e : AuditCall) (prev : String) (seq : ℕ)
  | inserted (row : AuditRecord)

/-- The committed rows in the order of their commits, the last values of the two sequences, the
advisory locks with their holders, and the transactions. -/
structure AuditDb where
  rows : List AuditRecord := []
  seqValue : ℕ := 0
  idValue : ℕ := 0
  locks : Dict ℤ ℕ := ∅
  txns : ℕ → Txn := fun _ ↦ .idle

inductive Action
  /-- Open a transaction for a call, in a session of the given scope. -/
  | begin (scope : String) (e : AuditCall)
  /-- `pg_advisory_xact_lock(hashtext(tenant_id))` returns. -/
  | lock
  | read
  /-- `nextval('audit_seq_seq')` hands out a value. -/
  | nextval (value : ℕ)
  /-- `INSERT`, with the id the table's own sequence hands out, at the time `now`. -/
  | insert (id : ℕ) (now : Time)
  | commit
  | abort

/-- The policy `tenant_isolation`. -/
def sees (scope tenantId : String) : Bool := scope = tenantId || scope = "_system"

/-- The digest of the tenant's row with the largest `seq`, or `genesis`. -/
def latestHash (rows : List AuditRecord) (scope tenantId : String) : String :=
  let visible := if sees scope tenantId then rowsOf tenantId rows else []
  (((visible.argmax AuditRecord.seq).map AuditRecord.chainHash).filter (· ≠ "")).getD genesis

namespace AuditDb

def move (db : AuditDb) (w : ℕ) (txn : Txn) : AuditDb :=
  { db with txns := Function.update db.txns w txn }

/-- The end of a transaction: its locks are released. -/
def release (db : AuditDb) (w : ℕ) : AuditDb :=
  { db.move w .idle with locks := db.locks.filter fun _ holder ↦ holder ≠ w }

@[simp] theorem txns_move_self (db : AuditDb) (w : ℕ) (txn : Txn) : (db.move w txn).txns w = txn :=
  Function.update_self ..

theorem txns_move_of_ne (db : AuditDb) {w w' : ℕ} (hw : w' ≠ w) (txn : Txn) :
    (db.move w txn).txns w' = db.txns w' :=
  Function.update_of_ne hw ..

variable (K : AuditHash) (hashtext : String → ℤ)

/-- One action of worker `w`, if it can be taken. -/
def step (db : AuditDb) (w : ℕ) (action : Action) : Option AuditDb :=
  match action, db.txns w with
  | .begin scope e, .idle => some (db.move w (.begun scope e))
  | .lock, .begun scope e =>
    if db.locks.get? (hashtext e.tenantId) = none then
      some { db.move w (.locked scope e) with locks := db.locks.set (hashtext e.tenantId) w }
    else none
  | .read, .locked scope e =>
    some (db.move w (.read scope e (latestHash db.rows scope e.tenantId)))
  | .nextval value, .read scope e prev =>
    if db.seqValue < value then
      some { db.move w (.numbered scope e prev value) with seqValue := value }
    else none
  | .insert id now, .numbered scope e prev seq =>
    if db.idValue < id ∧ sees scope e.tenantId then
      let fields := e.fields (roundMicro now)
      some { db.move w
        (.inserted ⟨id, seq, fields, chainHash K prev fields, prev⟩) with idValue := id }
    else none
  | .commit, .inserted row => some { db.release w with rows := db.rows ++ [row] }
  | .abort, _ => some (db.release w)
  | _, _ => none

def run (db : AuditDb) : List (ℕ × Action) → Option AuditDb
  | [] => some db
  | (w, action) :: schedule => (db.step K hashtext w action).bind fun db' ↦ db'.run schedule

end AuditDb

/-! ## What a worker knows -/

def Txn.held : Txn → Option String
  | idle | begun _ _ => none
  | locked _ e | read _ e _ | numbered _ e _ _ => some e.tenantId
  | inserted row => some row.fields.tenantId

/-- What a transaction has learned is still so. -/
def Txn.Ready (K : AuditHash) (rows : List AuditRecord) (seqValue idValue : ℕ) : Txn → Prop
  | idle | begun _ _ | locked _ _ => True
  | read scope e prev => sees scope e.tenantId → prev = tailOf e.tenantId rows
  | numbered scope e prev seq =>
    (sees scope e.tenantId → prev = tailOf e.tenantId rows) ∧ seq ≤ seqValue ∧
      ∀ a ∈ rowsOf e.tenantId rows, a.seq < seq
  | inserted row =>
    row.prevHash = tailOf row.fields.tenantId rows ∧
      chainHash K row.prevHash row.fields = row.chainHash ∧
      row.seq ≤ seqValue ∧ row.id ≤ idValue ∧
      ∀ a ∈ rowsOf row.fields.tenantId rows, a.seq < row.seq ∧ a.id < row.id

theorem Txn.Ready.mono {K : AuditHash} {rows rows' : List AuditRecord} {s s' i i' : ℕ} {txn : Txn}
    (h : txn.Ready K rows s i) (hs : s ≤ s') (hi : i ≤ i')
    (hrows : ∀ t, txn.held = some t → rowsOf t rows' = rowsOf t rows) :
      txn.Ready K rows' s' i' := by
  cases txn with
  | idle | begun _ _ | locked _ _ => trivial
  | read scope e prev =>
    intro hsees
    rw [tailOf, hrows _ rfl]
    exact h hsees
  | numbered scope e prev seq =>
    obtain ⟨hprev, hseq, hlarger⟩ := h
    refine ⟨fun hsees ↦ ?_, hseq.trans hs, ?_⟩
    · rw [tailOf, hrows _ rfl]
      exact hprev hsees
    · rw [hrows _ rfl]
      exact hlarger
  | inserted row =>
    obtain ⟨hprev, hstamp, hseq, hid, hlarger⟩ := h
    refine ⟨?_, hstamp, hseq.trans hs, hid.trans hi, ?_⟩
    · rw [tailOf, hrows _ rfl]
      exact hprev
    · rw [hrows _ rfl]
      exact hlarger

structure AuditDb.Inv (K : AuditHash) (hashtext : String → ℤ) (db : AuditDb) : Prop where
  /-- Whoever is past the lock statement holds the lock. -/
  holds : ∀ w t, (db.txns w).held = some t → db.locks.get? (hashtext t) = some w
  bounds : ∀ a ∈ db.rows, a.seq ≤ db.seqValue ∧ a.id ≤ db.idValue
  increasing : ∀ t, (rowsOf t db.rows).Pairwise fun a b ↦ a.seq < b.seq ∧ a.id < b.id
  linked : ∀ t, Linked AuditRecord.prevHash AuditRecord.chainHash genesis (rowsOf t db.rows)
  stamped : ∀ a ∈ db.rows, chainHash K a.prevHash a.fields = a.chainHash
  ready : ∀ w, (db.txns w).Ready K db.rows db.seqValue db.idValue

/-- In a chain whose `seq` increases, the row with the largest `seq` is the last one. -/
theorem latestHash_eq_tailOf {K : AuditHash} (hK : ∀ s, K.sha256 s ≠ "") {rows : List AuditRecord}
    {scope t : String} (hsees : sees scope t = true)
    (hinc : (rowsOf t rows).Pairwise fun a b ↦ a.seq < b.seq ∧ a.id < b.id)
    (hstamped : ∀ a ∈ rows, chainHash K a.prevHash a.fields = a.chainHash) :
    latestHash rows scope t = tailOf t rows := by
  have hdigest : ∀ a ∈ rowsOf t rows, a.chainHash ≠ "" := by
    intro a ha
    rw [← hstamped a (List.mem_of_mem_filter ha)]
    exact hK _
  rw [latestHash, tailOf, if_pos hsees]
  generalize rowsOf t rows = chain at hinc hdigest
  rcases chain.eq_nil_or_concat' with rfl | ⟨before, a, rfl⟩
  · rfl
  · have hmax : (before ++ [a]).argmax AuditRecord.seq = some a := by
      rw [List.argmax_concat]
      rcases hbest : before.argmax AuditRecord.seq with _ | b
      · rfl
      · have hlt := ((List.pairwise_append.mp hinc).2.2 b (List.argmax_mem hbest) a
          (List.mem_singleton.mpr rfl)).1
        simp [hlt]
    rw [hmax, lastDigest_append_singleton]
    simp [Option.filter_some, hdigest a (by simp)]

namespace AuditDb.Inv

variable {K : AuditHash} {hashtext : String → ℤ} {db : AuditDb} {w : ℕ}

variable {db' : AuditDb} {scope prev : String} {e : AuditCall}

/-- An action that commits nothing: what has to be shown concerns the worker that took it. -/
theorem of_same_rows (h : Inv K hashtext db) (hrows : db'.rows = db.rows)
    (hseq : db.seqValue ≤ db'.seqValue) (hid : db.idValue ≤ db'.idValue)
    (hothers : ∀ w', w' ≠ w → db'.txns w' = db.txns w')
    (hlocks : ∀ w' t, (db'.txns w').held = some t → db'.locks.get? (hashtext t) = some w')
    (hready : (db'.txns w).Ready K db.rows db'.seqValue db'.idValue) : Inv K hashtext db' := by
  refine ⟨hlocks, ?_, ?_, ?_, ?_, fun w' ↦ ?_⟩
  · intro a ha
    rw [hrows] at ha
    exact ⟨(h.bounds a ha).1.trans hseq, (h.bounds a ha).2.trans hid⟩
  · rw [hrows]
    exact h.increasing
  · rw [hrows]
    exact h.linked
  · rw [hrows]
    exact h.stamped
  · rw [hrows]
    by_cases hw : w' = w
    · rw [hw]
      exact hready
    · rw [hothers w' hw]
      exact (h.ready w').mono hseq hid fun _ _ ↦ rfl

theorem holds_move (h : Inv K hashtext db) {txn : Txn} (hheld : txn.held = (db.txns w).held)
    (w' : ℕ) (t : String) (ht : ((db.move w txn).txns w').held = some t) :
    db.locks.get? (hashtext t) = some w' := by
  by_cases hw : w' = w
  · subst hw
    rw [txns_move_self, hheld] at ht
    exact h.holds w' t ht
  · rw [txns_move_of_ne db hw] at ht
    exact h.holds w' t ht

theorem holds_release (h : Inv K hashtext db) (w' : ℕ) (t : String)
    (ht : ((db.move w .idle).txns w').held = some t) :
    (db.release w).locks.get? (hashtext t) = some w' := by
  by_cases hw : w' = w
  · subst hw
    rw [txns_move_self] at ht
    cases ht
  · rw [txns_move_of_ne db hw] at ht
    rw [release, Dict.get?_filter, h.holds w' t ht]
    simp [Option.filter_some, hw]

theorem abort (h : Inv K hashtext db) : Inv K hashtext (db.release w) :=
  h.of_same_rows (w := w) rfl le_rfl le_rfl (fun _ hw ↦ txns_move_of_ne db hw _) h.holds_release
    (by rw [release, txns_move_self]; trivial)

theorem begin (h : Inv K hashtext db) (htxn : db.txns w = .idle) (scope : String) (e : AuditCall) :
    Inv K hashtext (db.move w (.begun scope e)) := by
  refine h.of_same_rows (w := w) rfl le_rfl le_rfl (fun _ hw ↦ txns_move_of_ne db hw _)
    (h.holds_move ?_) ?_
  · rw [htxn]
    rfl
  · rw [txns_move_self]
    trivial

theorem lock (h : Inv K hashtext db)
    (hfree : db.locks.get? (hashtext e.tenantId) = none) : Inv K hashtext
      { db.move w (.locked scope e) with locks := db.locks.set (hashtext e.tenantId) w } := by
  refine h.of_same_rows (w := w) rfl le_rfl le_rfl (fun _ hw ↦ txns_move_of_ne db hw _) ?_ ?_
  · intro w' t ht
    change ((db.move w (.locked scope e)).txns w').held = some t at ht
    change (db.locks.set (hashtext e.tenantId) w).get? (hashtext t) = some w'
    rw [Dict.get?_set]
    by_cases hw : w' = w
    · subst hw
      rw [txns_move_self] at ht
      obtain rfl : e.tenantId = t := Option.some.inj ht
      rw [if_pos rfl]
    · rw [txns_move_of_ne db hw] at ht
      have hheld := h.holds w' t ht
      -- the lock was free, so this is not the one `w'` holds
      rw [if_neg fun heq ↦ ?_, hheld]
      rw [heq, hfree] at hheld
      cases hheld
  · change ((db.move w (.locked scope e)).txns w).Ready K _ _ _
    rw [txns_move_self]
    trivial

theorem read (hK : ∀ s, K.sha256 s ≠ "") (h : Inv K hashtext db)
    (htxn : db.txns w = .locked scope e) :
    Inv K hashtext (db.move w (.read scope e (latestHash db.rows scope e.tenantId))) := by
  refine h.of_same_rows (w := w) rfl le_rfl le_rfl (fun _ hw ↦ txns_move_of_ne db hw _)
    (h.holds_move ?_) ?_
  · rw [htxn]
    rfl
  · rw [txns_move_self]
    exact fun hsees ↦ latestHash_eq_tailOf hK hsees (h.increasing _) h.stamped

theorem nextval (h : Inv K hashtext db) {value : ℕ}
    (htxn : db.txns w = .read scope e prev) (hvalue : db.seqValue < value) :
    Inv K hashtext { db.move w (.numbered scope e prev value) with seqValue := value } := by
  refine h.of_same_rows (w := w) rfl hvalue.le le_rfl (fun _ hw ↦ txns_move_of_ne db hw _)
    (h.holds_move ?_) ?_
  · rw [htxn]
    rfl
  · change ((db.move w (.numbered scope e prev value)).txns w).Ready K _ _ _
    rw [txns_move_self]
    have hready := h.ready w
    rw [htxn] at hready
    refine ⟨hready, le_rfl, fun a ha ↦ ?_⟩
    exact (h.bounds a (List.mem_of_mem_filter ha)).1.trans_lt hvalue

theorem insert (h : Inv K hashtext db) {seq id : ℕ}
    {ts : Time} (htxn : db.txns w = .numbered scope e prev seq) (hid : db.idValue < id)
    (hsees : sees scope e.tenantId = true) : Inv K hashtext
      { db.move w (.inserted ⟨id, seq, e.fields ts, chainHash K prev (e.fields ts), prev⟩) with
        idValue := id } := by
  refine h.of_same_rows (w := w) rfl le_rfl hid.le (fun _ hw ↦ txns_move_of_ne db hw _)
    (h.holds_move ?_) ?_
  · rw [htxn]
    rfl
  · change ((db.move w (.inserted ⟨id, seq, e.fields ts, chainHash K prev (e.fields ts),
      prev⟩)).txns w).Ready K _ _ _
    rw [txns_move_self]
    have hready := h.ready w
    rw [htxn] at hready
    obtain ⟨hprev, hseq, hlarger⟩ := hready
    refine ⟨hprev hsees, rfl, hseq, le_rfl, fun a ha ↦ ⟨hlarger a ha, ?_⟩⟩
    exact (h.bounds a (List.mem_of_mem_filter ha)).2.trans_lt hid

theorem commit (h : Inv K hashtext db) {row : AuditRecord} (htxn : db.txns w = .inserted row) :
    Inv K hashtext { db.release w with rows := db.rows ++ [row] } := by
  have hready := h.ready w
  rw [htxn] at hready
  obtain ⟨hprev, hstamp, hseq, hid, hlarger⟩ := hready
  have hheld : (db.txns w).held = some row.fields.tenantId := by rw [htxn]; rfl
  have hown : rowsOf row.fields.tenantId (db.rows ++ [row]) =
      rowsOf row.fields.tenantId db.rows ++ [row] := by
    rw [rowsOf_append]
    simp [rowsOf]
  have hother {t : String} (ht : t ≠ row.fields.tenantId) :
      rowsOf t (db.rows ++ [row]) = rowsOf t db.rows := by
    rw [rowsOf_append]
    simp [rowsOf, Ne.symm ht]
  refine ⟨h.holds_release, ?_, fun t ↦ ?_, fun t ↦ ?_, ?_, fun w' ↦ ?_⟩
  · intro a ha
    rcases List.mem_append.mp ha with ha | ha
    · exact h.bounds a ha
    · obtain rfl := List.mem_singleton.mp ha
      exact ⟨hseq, hid⟩
  · by_cases ht : t = row.fields.tenantId
    · rw [ht, hown, List.pairwise_append]
      refine ⟨h.increasing _, List.pairwise_singleton _ _, fun a ha b hb ↦ ?_⟩
      obtain rfl := List.mem_singleton.mp hb
      exact hlarger a ha
    · rw [hother ht]
      exact h.increasing t
  · by_cases ht : t = row.fields.tenantId
    · rw [ht, hown, linked_append]
      exact ⟨h.linked _, hprev, trivial⟩
    · rw [hother ht]
      exact h.linked t
  · intro a ha
    rcases List.mem_append.mp ha with ha | ha
    · exact h.stamped a ha
    · obtain rfl := List.mem_singleton.mp ha
      exact hstamp
  · change ((db.move w .idle).txns w').Ready K _ _ _
    by_cases hw : w' = w
    · rw [hw, txns_move_self]
      trivial
    · rw [txns_move_of_ne db hw]
      refine (h.ready w').mono le_rfl le_rfl fun t ht ↦ hother ?_
      rintro rfl
      exact hw (Option.some.inj ((h.holds w _ hheld).symm.trans (h.holds w' _ ht))).symm

/-- **One action.** -/
theorem step (hK : ∀ s, K.sha256 s ≠ "") (h : Inv K hashtext db) {action : Action}
    (hstep : db.step K hashtext w action = some db') : Inv K hashtext db' := by
  unfold AuditDb.step at hstep
  split at hstep
  · rename_i scope e htxn
    cases hstep
    exact h.begin htxn scope e
  · split at hstep
    · rename_i hfree
      cases hstep
      exact h.lock hfree
    · cases hstep
  · rename_i htxn
    cases hstep
    exact h.read hK htxn
  · rename_i htxn
    split at hstep
    · rename_i hvalue
      cases hstep
      exact h.nextval htxn hvalue
    · cases hstep
  · rename_i htxn
    split at hstep
    · rename_i hguard
      cases hstep
      exact h.insert htxn hguard.1 hguard.2
    · cases hstep
  · rename_i htxn
    cases hstep
    exact h.commit htxn
  · cases hstep
    exact h.abort
  · cases hstep

theorem run (hK : ∀ s, K.sha256 s ≠ "") {schedule : List (ℕ × Action)} {db : AuditDb}
    (h : Inv K hashtext db) (hrun : db.run K hashtext schedule = some db') :
    Inv K hashtext db' := by
  induction schedule generalizing db with
  | nil =>
    cases hrun
    exact h
  | cons entry schedule ih =>
    obtain ⟨db₁, hstep, hrest⟩ := Option.bind_eq_some_iff.mp hrun
    exact ih (h.step hK hstep) hrest

theorem initial : Inv K hashtext {} where
  holds _ _ ht := by cases ht
  bounds := by simp
  increasing _ := List.Pairwise.nil
  linked _ := trivial
  stamped := by simp
  ready _ := trivial

end AuditDb.Inv

/-- **The audit chain never forks.** Whatever the workers do, the committed rows of a tenant,
ordered by id, are ordered by `seq` too, and each is linked to the one before it, the first one to
`genesis`. -/
theorem audit_chain_never_forks {K : AuditHash} (hK : ∀ s, K.sha256 s ≠ "") {hashtext : String → ℤ}
    {schedule : List (ℕ × Action)} {db : AuditDb}
    (hrun : AuditDb.run K hashtext {} schedule = some db) (t : String) :
    (tenantRows db.rows t).Pairwise (fun a b ↦ a.id < b.id ∧ a.seq < b.seq) ∧
      Linked AuditRecord.prevHash AuditRecord.chainHash genesis (tenantRows db.rows t) := by
  have h : AuditDb.Inv K hashtext db := AuditDb.Inv.initial.run hK hrun
  have hsorted : tenantRows db.rows t = rowsOf t db.rows :=
    ((h.increasing t).imp fun hab ↦ hab.2.le).insertionSort_eq
  rw [hsorted]
  exact ⟨(h.increasing t).imp And.symm, h.linked t⟩

/-- Two workers begin together; the second gets the lock when the first has committed. -/
def Sample.schedule : List (ℕ × Action) :=
  Sample.calls.zipIdx.map (fun c ↦ (c.2, .begin "acme" c.1.1)) ++
    [(0, .lock), (0, .read), (0, .nextval 1), (0, .insert 1 1700000000), (0, .commit),
      (1, .lock), (1, .read), (1, .nextval 2), (1, .insert 2 1700000060), (1, .commit)]

open Audit.Sample in
/-- Both rows are there, and they are linked. -/
theorem two_workers_one_chain :
    ∃ db, AuditDb.run hash (fun _ ↦ 7) {} schedule = some db ∧
      db.rows = records ∧
      Linked AuditRecord.prevHash AuditRecord.chainHash genesis (tenantRows db.rows "acme") := by
  have heval : ∃ db ∈ AuditDb.run hash (fun _ ↦ 7) {} schedule,
      db.rows = records := by decide +kernel
  obtain ⟨db, hrun, hrows⟩ := heval
  exact ⟨db, hrun, hrows, (audit_chain_never_forks sha256_ne_empty hrun "acme").2⟩

end FusionIdentity.Audit
