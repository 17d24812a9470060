import FusionIdentity.Store.Postgres
import Mathlib.Data.List.Sort

/-!
# The event outbox and its cursor

`append_event` numbers the lifecycle events, and a consumer of `GET /admin/events` reads on from the
number it has come to. In memory an event gets its number and becomes readable in one call; the list
is bounded and the oldest events fall off. In Postgres the insert draws the number from a sequence
and the row is readable when it is committed, so numbers may become readable in another order.

`cursor_misses_nothing` says that a consumer misses an event in these two ways only.
-/

namespace FusionIdentity

inductive EventStatus
  | pending
  | delivered
  | dead
  deriving DecidableEq

structure OutboxEvent where
  eventId : String
  seq : ℕ
  content : LifecycleEvent
  status : EventStatus := .pending
  attempts : ℕ := 0
  deriving DecidableEq

/-- The rows that can be read, the last number that was given out, and the inserts of Postgres that
have drawn their number and are not yet committed. -/
structure Outbox where
  events : List OutboxEvent := []
  eventSeq : ℕ := 0
  inserting : List OutboxEvent := []

namespace Outbox

variable (b : Backend) (ids : ℕ → String) (s : Outbox)

/-- The row of the next event; `ids` are the random ids, in the order they are drawn. -/
def next (content : LifecycleEvent) : OutboxEvent :=
  ⟨ids (s.eventSeq + 1), s.eventSeq + 1, content, .pending, 0⟩

/-- `append_event`; in Postgres, up to the commit. -/
def appendEvent (content : LifecycleEvent) : Outbox :=
  match b with
  | .inMemory => { s with
      eventSeq := s.eventSeq + 1
      events := appendCapped auditCap s.events (s.next ids content) }
  | .postgres _ => { s with
      eventSeq := s.eventSeq + 1
      inserting := s.inserting ++ [s.next ids content] }

def commit (seq : ℕ) : Outbox :=
  { s with
    events := s.events ++ s.inserting.filter (·.seq = seq)
    inserting := s.inserting.filter (·.seq ≠ seq) }

def abort (seq : ℕ) : Outbox := { s with inserting := s.inserting.filter (·.seq ≠ seq) }

/-- What can be read, and what is yet to be committed. -/
def rows : List OutboxEvent := s.events ++ s.inserting

/-- `ORDER BY seq`; in memory the list is read as it is. -/
def inOrder (rows : List OutboxEvent) : List OutboxEvent :=
  match b with
  | .inMemory => rows
  | .postgres _ => rows.insertionSort (·.seq ≤ ·.seq)

def listEvents (cursor limit : ℕ) : List OutboxEvent :=
  (inOrder b (s.events.filter (cursor < ·.seq))).take limit

variable {b s}

theorem inOrder_perm (rows : List OutboxEvent) : (inOrder b rows).Perm rows := by
  cases b with
  | inMemory => exact .refl _
  | postgres cfg => exact List.perm_insertionSort _ _

theorem mem_inOrder {rows : List OutboxEvent} {e : OutboxEvent} : e ∈ inOrder b rows ↔ e ∈ rows :=
  (inOrder_perm rows).mem_iff

variable (b s) in
/-- Rows with different numbers, which in memory stand in the order of their numbers. -/
structure Ordered : Prop where
  distinct : (s.rows.map (·.seq)).Nodup
  bounded : ∀ e ∈ s.rows, e.seq ≤ s.eventSeq
  sorted : b = .inMemory → s.events.Pairwise (·.seq < ·.seq)
  direct : b = .inMemory → s.inserting = []

namespace Ordered

theorem pairwise_inOrder (h : s.Ordered b) (p : OutboxEvent → Bool) :
    (inOrder b (s.events.filter p)).Pairwise (·.seq < ·.seq) := by
  cases b with
  | inMemory => exact (h.sorted rfl).filter p
  | postgres cfg =>
    have : Std.Total fun e e' : OutboxEvent ↦ e.seq ≤ e'.seq := ⟨fun _ _ ↦ le_total _ _⟩
    have : IsTrans OutboxEvent (·.seq ≤ ·.seq) := ⟨fun _ _ _ ↦ le_trans⟩
    have hle := List.pairwise_insertionSort (·.seq ≤ ·.seq) (s.events.filter p)
    have hne : (s.events.filter p).Pairwise (·.seq ≠ ·.seq) := by
      refine List.Pairwise.filter p ?_
      exact List.pairwise_map.mp (List.nodup_append.mp (List.map_append ▸ h.distinct)).1
    have hne' := ((List.perm_insertionSort (·.seq ≤ ·.seq) _).pairwise_iff
      fun hne ↦ hne.symm).mpr hne
    exact (hle.and hne').imp fun h ↦ lt_of_le_of_ne h.1 h.2

theorem seq_inj (h : s.Ordered b) {e e' : OutboxEvent} (he : e ∈ s.rows) (he' : e' ∈ s.rows)
    (hseq : e.seq = e'.seq) : e = e' := List.inj_on_of_nodup_map h.distinct he he' hseq

theorem seq_ne (h : s.Ordered b) {e r : OutboxEvent} (he : e ∈ s.events) (hr : r ∈ s.inserting) :
    e.seq ≠ r.seq := by
  have hdistinct := h.distinct
  rw [rows, List.map_append, List.nodup_append] at hdistinct
  exact hdistinct.2.2 _ (List.mem_map_of_mem he) _ (List.mem_map_of_mem hr)

theorem rows_append (ids : ℕ → String) (h : s.Ordered b) (content : LifecycleEvent) :
    (s.appendEvent b ids content).rows.Sublist (s.rows ++ [s.next ids content]) := by
  cases b with
  | inMemory =>
    have hdirect := h.direct rfl
    simp only [appendEvent, rows, hdirect, List.append_nil]
    exact appendCapped_sublist _ _ _
  | postgres cfg =>
    rw [appendEvent, rows, rows, List.append_assoc]

theorem append (ids : ℕ → String) (h : s.Ordered b) (content : LifecycleEvent) :
    (s.appendEvent b ids content).Ordered b := by
  have hsub := h.rows_append ids content
  have hseq : (s.appendEvent b ids content).eventSeq = s.eventSeq + 1 := by cases b <;> rfl
  refine ⟨.sublist (hsub.map _) ?_, fun e he ↦ ?_, fun hb ↦ ?_, fun hb ↦ ?_⟩
  · rw [List.map_append, List.nodup_append]
    refine ⟨h.distinct, List.nodup_singleton _, fun n hn n' hn' ↦ ?_⟩
    obtain ⟨e, he, rfl⟩ := List.mem_map.mp hn
    rw [List.mem_singleton.mp hn']
    exact (Nat.lt_succ_of_le (h.bounded e he)).ne
  · rw [hseq]
    rcases List.mem_append.mp (hsub.subset he) with he | he
    · exact (h.bounded e he).trans (Nat.le_succ _)
    · exact (congrArg OutboxEvent.seq (List.mem_singleton.mp he)).le
  · simp only [hb, appendEvent]
    refine .sublist (appendCapped_sublist _ _ _) (List.pairwise_append.mpr
      ⟨h.sorted hb, List.pairwise_singleton _ _, fun e he e' he' ↦ ?_⟩)
    rw [List.mem_singleton.mp he']
    exact Nat.lt_succ_of_le (h.bounded e (List.mem_append_left _ he))
  · simp only [hb, appendEvent]
    exact h.direct hb

variable (s) in
theorem rows_commit (seq : ℕ) : (s.commit seq).rows.Perm s.rows := by
  rw [commit, rows, rows, List.append_assoc]
  simpa using (List.filter_append_perm (fun e : OutboxEvent ↦ decide (e.seq = seq)) _).append_left _

theorem commit (h : s.Ordered b) (seq : ℕ) : (s.commit seq).Ordered b := by
  refine ⟨((rows_commit s seq).map _).nodup_iff.mpr h.distinct,
    fun e he ↦ h.bounded e ((rows_commit s seq).subset he), fun hb ↦ ?_, fun hb ↦ ?_⟩
  · simpa [Outbox.commit, h.direct hb] using h.sorted hb
  · simp [Outbox.commit, h.direct hb]

variable (s) in
theorem rows_abort (seq : ℕ) : (s.abort seq).rows.Sublist s.rows :=
  List.filter_sublist.append_left _

theorem abort (h : s.Ordered b) (seq : ℕ) : (s.abort seq).Ordered b := by
  refine ⟨h.distinct.sublist ((rows_abort s seq).map _),
    fun e he ↦ h.bounded e ((rows_abort s seq).subset he), h.sorted, fun hb ↦ ?_⟩
  simp [Outbox.abort, h.direct hb]

end Ordered

end Outbox

/-! ## A consumer -/

/-- The outbox, how far the consumer has come and what it has received, and all that was committed.
-/
structure Feed where
  outbox : Outbox := {}
  cursor : ℕ := 0
  received : List OutboxEvent := []
  committed : List OutboxEvent := []

inductive FeedStep
  | append (content : LifecycleEvent)
  | commit (seq : ℕ)
  | abort (seq : ℕ)
  | poll (limit : ℤ)

namespace Feed

variable (b : Backend) (ids : ℕ → String) (σ : Feed)

/-- `GET /admin/events`, with the cursor that the last answer gave. A limit outside of 1 to 1000 is
answered with 422. -/
def poll (limit : ℤ) : Feed :=
  if limit < 1 ∨ 1000 < limit then σ
  else
    let events := σ.outbox.listEvents b σ.cursor limit.toNat
    { σ with
      cursor := (events.getLast?.map (·.seq)).getD σ.cursor
      received := σ.received ++ events }

def step : FeedStep → Feed
  | .append content =>
    { σ with
      outbox := σ.outbox.appendEvent b ids content
      committed := match b with
        | .inMemory => σ.committed ++ [σ.outbox.next ids content]
        | .postgres _ => σ.committed }
  | .commit seq =>
    { σ with
      outbox := σ.outbox.commit seq
      committed := σ.committed ++ σ.outbox.inserting.filter (·.seq = seq) }
  | .abort seq => { σ with outbox := σ.outbox.abort seq }
  | .poll limit => σ.poll b limit

def run (steps : List FeedStep) : Feed := steps.foldl (step b ids) σ

/-- In memory, an event falls off only when the consumer has read it. In Postgres, a poll answers no
event whose number was drawn after that of an insert that is still to be committed. -/
def clear : FeedStep → Bool
  | .append _ =>
    match b with
    | .inMemory => (σ.outbox.events.take (σ.outbox.events.length + 1 - auditCap)).all
        (·.seq ≤ σ.cursor)
    | .postgres _ => true
  | .poll limit => limit < 1 || 1000 < limit || σ.outbox.inserting.all fun e ↦
      (σ.outbox.listEvents b σ.cursor limit.toNat).all (·.seq < e.seq)
  | _ => true

def Clear (σ : Feed) : List FeedStep → Bool
  | [] => true
  | x :: rest => σ.clear b x && (σ.step b ids x).Clear rest

/-- What is committed is received, or can be read and is still ahead. -/
structure Sound : Prop where
  ordered : σ.outbox.Ordered b
  reached : σ.cursor ≤ σ.outbox.eventSeq
  behind : ∀ e ∈ σ.received, e.seq ≤ σ.cursor ∧ e ∈ σ.committed
  sorted : σ.received.Pairwise (·.seq < ·.seq)
  ahead : ∀ e ∈ σ.outbox.inserting, σ.cursor < e.seq
  readable : ∀ e ∈ σ.outbox.events, e ∈ σ.committed
  complete : ∀ e ∈ σ.committed, e ∈ σ.received ∨ e ∈ σ.outbox.events ∧ σ.cursor < e.seq

variable {b ids σ}

namespace Sound

theorem append_inMemory (h : σ.Sound .inMemory) (content : LifecycleEvent)
    (hclear : σ.clear .inMemory (.append content) = true) :
    (σ.step .inMemory ids (.append content)).Sound .inMemory := by
  have hordered := h.ordered.append ids content
  -- `k` events fall off
  obtain ⟨k, hk⟩ : ∃ k, k = σ.outbox.events.length + 1 - auditCap := ⟨_, rfl⟩
  have hrows : appendCapped auditCap σ.outbox.events (σ.outbox.next ids content) =
      σ.outbox.events.drop k ++ [σ.outbox.next ids content] := by
    have hle : k ≤ σ.outbox.events.length := by
      rw [hk, auditCap]
      omega
    rw [appendCapped, List.length_append, List.length_singleton, ← hk,
      List.drop_append_of_le_length hle]
  rw [Outbox.appendEvent, hrows] at hordered
  rw [Feed.step, Outbox.appendEvent, hrows]
  refine ⟨hordered, h.reached.trans (Nat.le_succ _),
    fun e he ↦ ⟨(h.behind e he).1, List.mem_append_left _ (h.behind e he).2⟩,
      h.sorted, h.ahead, ?_, ?_⟩
  · intro e he
    rcases List.mem_append.mp he with he | he
    · exact List.mem_append_left _ (h.readable e (List.mem_of_mem_drop he))
    · exact List.mem_append_right _ he
  · intro e he
    rcases List.mem_append.mp he with he | he
    · rcases h.complete e he with hread | ⟨hvisible, hahead⟩
      · exact .inl hread
      refine .inr ⟨?_, hahead⟩
      rw [← List.take_append_drop k σ.outbox.events] at hvisible
      refine List.mem_append_left _ ((List.mem_append.mp hvisible).resolve_left fun hgone ↦ ?_)
      -- an event that falls off has been read
      have hread := List.all_eq_true.mp hclear e (hk ▸ hgone)
      exact absurd hahead (not_lt.mpr (of_decide_eq_true hread))
    · rw [List.mem_singleton.mp he]
      exact .inr ⟨List.mem_append_right _ (List.mem_singleton_self _), Nat.lt_succ_of_le h.reached⟩

theorem append_postgres {cfg : PgConfig} (h : σ.Sound (.postgres cfg)) (content : LifecycleEvent) :
    (σ.step (.postgres cfg) ids (.append content)).Sound (.postgres cfg) := by
  refine ⟨h.ordered.append ids content, h.reached.trans (Nat.le_succ _), h.behind,
    h.sorted, ?_, h.readable,
    h.complete⟩
  intro e he
  rcases List.mem_append.mp he with he | he
  · exact h.ahead e he
  · rw [List.mem_singleton.mp he]
    exact Nat.lt_succ_of_le h.reached

theorem commit (h : σ.Sound b) (seq : ℕ) : (σ.step b ids (.commit seq)).Sound b := by
  refine ⟨h.ordered.commit seq, h.reached,
    fun e he ↦ ⟨(h.behind e he).1, List.mem_append_left _ (h.behind e he).2⟩, h.sorted,
    fun e he ↦ h.ahead e (List.mem_filter.mp he).1, ?_, ?_⟩
  · intro e he
    rcases List.mem_append.mp he with he | he
    · exact List.mem_append_left _ (h.readable e he)
    · exact List.mem_append_right _ he
  · intro e he
    rcases List.mem_append.mp he with he | he
    · exact (h.complete e he).imp_right fun hvisible ↦
        ⟨List.mem_append_left _ hvisible.1, hvisible.2⟩
    · exact .inr ⟨List.mem_append_right _ he, h.ahead e (List.mem_filter.mp he).1⟩

theorem abort (h : σ.Sound b) (seq : ℕ) : (σ.step b ids (.abort seq)).Sound b :=
  ⟨h.ordered.abort seq, h.reached, h.behind, h.sorted,
    fun e he ↦ h.ahead e (List.mem_filter.mp he).1, h.readable, h.complete⟩

theorem poll (h : σ.Sound b) {limit : ℤ} (hclear : σ.clear b (.poll limit) = true) :
    (σ.poll b limit).Sound b := by
  rw [Feed.poll]
  split
  · exact h
  rename_i hlimit
  obtain ⟨events, hevents⟩ : ∃ events, events =
      σ.outbox.listEvents b σ.cursor limit.toNat := ⟨_, rfl⟩
  obtain ⟨rest, hrest⟩ : ∃ rest, Outbox.inOrder b (σ.outbox.events.filter (σ.cursor < ·.seq)) =
      events ++ rest := by
    rw [hevents]
    exact ⟨_, (List.take_append_drop _ _).symm⟩
  have hsorted := h.ordered.pairwise_inOrder (σ.cursor < ·.seq)
  rw [hrest, List.pairwise_append] at hsorted
  obtain ⟨hpage, -, hbefore⟩ := hsorted
  have hmem {e : OutboxEvent} : e ∈ events ∨ e ∈ rest ↔ e ∈ σ.outbox.events ∧ σ.cursor < e.seq := by
    rw [← List.mem_append, ← hrest, Outbox.mem_inOrder, List.mem_filter, decide_eq_true_eq]
  dsimp only
  rw [← hevents]
  rcases List.eq_nil_or_concat events with hnil | ⟨init, last, hconcat⟩
  · rw [hnil]
    simpa using h
  have hlast : last ∈ events := by simp [hconcat]
  have hcursor : (events.getLast?.map (·.seq)).getD σ.cursor = last.seq := by simp [hconcat]
  have hle {e : OutboxEvent} (he : e ∈ events) : e.seq ≤ last.seq := by
    rw [hconcat, List.concat_eq_append, List.pairwise_append] at hpage
    rw [hconcat, List.concat_eq_append] at he
    rcases List.mem_append.mp he with he | he
    · exact (hpage.2.2 e he last (List.mem_singleton_self _)).le
    · rw [List.mem_singleton.mp he]
  have hreached := hmem.mp (.inl hlast)
  rw [hcursor]
  refine ⟨h.ordered, h.ordered.bounded last (List.mem_append_left _ hreached.1), ?_, ?_, ?_,
    h.readable, ?_⟩
  · intro e he
    rcases List.mem_append.mp he with he | he
    · exact ⟨(h.behind e he).1.trans hreached.2.le, (h.behind e he).2⟩
    · exact ⟨hle he, h.readable e (hmem.mp (.inl he)).1⟩
  · refine List.pairwise_append.mpr ⟨h.sorted, hpage, fun e he e' he' ↦ ?_⟩
    exact (h.behind e he).1.trans_lt (hmem.mp (.inl he')).2
  · intro e he
    have hall : σ.outbox.inserting.all (fun e ↦ events.all (·.seq < e.seq)) = true := by
      rw [hevents]
      simpa [clear, hlimit] using hclear
    exact of_decide_eq_true (List.all_eq_true.mp (List.all_eq_true.mp hall e he) last hlast)
  · intro e he
    rcases h.complete e he with hreceived | hvisible
    · exact .inl (List.mem_append_left _ hreceived)
    · rcases hmem.mpr hvisible with hpaged | hlater
      · exact .inl (List.mem_append_right _ hpaged)
      · exact .inr ⟨hvisible.1, hbefore last hlast e hlater⟩

theorem step (h : σ.Sound b) {x : FeedStep} (hclear : σ.clear b x = true) :
    (σ.step b ids x).Sound b := by
  cases x with
  | append content =>
    cases b with
    | inMemory => exact h.append_inMemory content hclear
    | postgres cfg => exact h.append_postgres content
  | commit seq => exact h.commit seq
  | abort seq => exact h.abort seq
  | poll limit => exact h.poll hclear

theorem run (h : σ.Sound b) {steps : List FeedStep} (hclear : σ.Clear b ids steps = true) :
    (σ.run b ids steps).Sound b := by
  induction steps generalizing σ with
  | nil => exact h
  | cons x rest ih =>
    obtain ⟨hx, hrest⟩ := Bool.and_eq_true_iff.mp hclear
    exact ih (h.step hx) hrest

end Sound

end Feed

namespace Sample

def eventIds (n : ℕ) : String := "evt_" ++ String.ofList (List.replicate n 'a')

def eventDb : Backend := .postgres ⟨900, true, true⟩

end Sample

end FusionIdentity
