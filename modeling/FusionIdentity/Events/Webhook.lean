import FusionIdentity.Events.Outbox
import Mathlib.Data.List.Nodup

/-!
# The webhook workers

A worker reads a batch of pending events and posts them one after the other, and after each post it
marks the event with a status and a number of attempts computed from the row as it was read. Every
instance of the service runs such a worker on the same outbox.

With more than one worker a mark may find another row than was read; `outcomes_final` holds for the
runs in which none does. A single worker is always in that case, and `webhook_progress` says how
many of its ticks an event waits at most, unless an insert with a smaller number is committed after
it.
-/

namespace FusionIdentity

namespace Outbox

variable (b : Backend) (s : Outbox)

def pendingEvents (limit : ℕ) : List OutboxEvent :=
  (inOrder b (s.events.filter (·.status = .pending))).take limit

/-- `mark_event`. No two rows have one id. -/
def markEvent (eventId : String) (status : EventStatus) (attempts : ℕ) : Outbox :=
  { s with events := s.events.map fun e ↦
      if e.eventId = eventId then { e with status := status, attempts := attempts } else e }

/-- What `_deliver_one` does after the post; an exception of the post is a failure. -/
def settle (maxAttempts : ℕ) (ok : Bool) (e : OutboxEvent) : Outbox :=
  let attempts := e.attempts + 1
  if ok then s.markEvent e.eventId .delivered attempts
  else if maxAttempts ≤ attempts then s.markEvent e.eventId .dead attempts
  else s.markEvent e.eventId .pending attempts

end Outbox

/-- A worker: the rest of its batch as it was read, the answer to the post of the first event of it,
and the number of ticks that it has begun. -/
structure Worker where
  queue : List OutboxEvent := []
  answer : Option Bool := none
  ticks : ℕ := 0
  pending : ∀ e ∈ queue, e.status = .pending := by simp

namespace Worker

variable (w : Worker)

def posted (ok : Bool) : Worker := { w with answer := some ok }

def marked : Worker where
  queue := w.queue.tail
  ticks := w.ticks
  pending e he := w.pending e (List.mem_of_mem_tail he)

def ticked (batch : List OutboxEvent) (h : ∀ e ∈ batch, e.status = .pending) : Worker :=
  ⟨batch, none, w.ticks + 1, h⟩

end Worker

theorem Outbox.pending_of_mem {b : Backend} {s : Outbox} {limit : ℕ} {e : OutboxEvent}
    (he : e ∈ s.pendingEvents b limit) : e ∈ s.events ∧ e.status = .pending := by
  obtain ⟨hmem, hstatus⟩ := List.mem_filter.mp (mem_inOrder.mp (List.mem_of_mem_take he))
  exact ⟨hmem, of_decide_eq_true hstatus⟩

/-- The outbox, the workers, and the posts so far: the number of the event, and whether the status
of the answer was 2xx. -/
structure Delivery where
  outbox : Outbox := {}
  workers : ℕ → Worker := fun _ ↦ {}
  posts : List (ℕ × Bool) := []

inductive DeliveryStep
  | append (content : LifecycleEvent)
  | commit (seq : ℕ)
  | abort (seq : ℕ)
  | fetch (i : ℕ)
  | post (i : ℕ) (ok : Bool)
  | mark (i : ℕ)
  | quit (i : ℕ)

/-- A call of `append_event`, or the end of its transaction. -/
def DeliveryStep.appends : DeliveryStep → Bool
  | append _ | commit _ | abort _ => true
  | _ => false

namespace Delivery

variable (b : Backend) (ids : ℕ → String) (maxAttempts batchSize : ℕ)

/-- One call of the store, or one post. A worker that is stopped, or whose call raises, leaves the
rest of its batch. -/
def step (σ : Delivery) : DeliveryStep → Delivery
  | .append content => { σ with outbox := σ.outbox.appendEvent b ids content }
  | .commit seq => { σ with outbox := σ.outbox.commit seq }
  | .abort seq => { σ with outbox := σ.outbox.abort seq }
  | .fetch i =>
    if (σ.workers i).queue = [] then
      { σ with workers := Function.update σ.workers i ((σ.workers i).ticked
          (σ.outbox.pendingEvents b batchSize) fun _ he ↦ (Outbox.pending_of_mem he).2) }
    else σ
  | .post i ok =>
    match (σ.workers i).queue.head?, (σ.workers i).answer with
    | some e, none =>
      { σ with
        workers := Function.update σ.workers i ((σ.workers i).posted ok)
        posts := σ.posts ++ [(e.seq, ok)] }
    | _, _ => σ
  | .mark i =>
    match (σ.workers i).queue.head?, (σ.workers i).answer with
    | some e, some ok =>
      { σ with
        outbox := σ.outbox.settle maxAttempts ok e
        workers := Function.update σ.workers i (σ.workers i).marked }
    | _, _ => σ
  | .quit i => { σ with workers := Function.update σ.workers i { ticks := (σ.workers i).ticks } }

def run (σ : Delivery) (steps : List DeliveryStep) : Delivery :=
  steps.foldl (step b ids maxAttempts batchSize) σ

def Along (cond : Delivery → DeliveryStep → Bool) (σ : Delivery) : List DeliveryStep → Bool
  | [] => true
  | x :: rest => cond σ x && (σ.step b ids maxAttempts batchSize x).Along cond rest

/-- A mark finds the row as it was read, or finds none. -/
def current (σ : Delivery) : DeliveryStep → Bool
  | .mark i => (σ.workers i).queue.head?.all fun e ↦
      σ.outbox.events.all fun e' ↦ e'.eventId ≠ e.eventId || e' = e
  | _ => true

end Delivery

/-! ## The rows -/

namespace Outbox

variable {b : Backend} {ids : ℕ → String} {m : ℕ} {s : Outbox}

theorem exists_settle (m : ℕ) (ok : Bool) (e : OutboxEvent) :
    ∃ status, s.settle m ok e = s.markEvent e.eventId status (e.attempts + 1) ∧
      (status = .pending → ok = false ∧ e.attempts + 1 < m) ∧ (status = .delivered → ok = true) ∧
      (status = .dead → ok = false ∧ m ≤ e.attempts + 1) := by
  rw [settle]
  split
  · exact ⟨.delivered, rfl, nofun, fun _ ↦ ‹_›, nofun⟩
  · rename_i hok
    have hok := Bool.eq_false_iff.mpr hok
    split
    · exact ⟨.dead, rfl, nofun, nofun, fun _ ↦ ⟨hok, ‹_›⟩⟩
    · exact ⟨.pending, rfl, fun _ ↦ ⟨hok, not_le.mp ‹_›⟩, nofun, nofun⟩

variable (ids s) in
/-- The outbox after a call other than `mark_event`: at most one row is new. -/
structure Grown (s' : Outbox) : Prop where
  later : s.eventSeq ≤ s'.eventSeq
  rows : ∀ e ∈ s'.rows, e ∈ s.rows ∨ ∃ content, e = s.next ids content ∧ s'.eventSeq = e.seq

theorem grown_append (h : s.Ordered b) (content : LifecycleEvent) :
    s.Grown ids (s.appendEvent b ids content) := by
  have hseq : (s.appendEvent b ids content).eventSeq = s.eventSeq + 1 := by cases b <;> rfl
  refine ⟨hseq ▸ Nat.le_succ _, fun e he ↦ ?_⟩
  rcases List.mem_append.mp ((h.rows_append ids content).subset he) with he | he
  · exact .inl he
  · obtain rfl := List.mem_singleton.mp he
    exact .inr ⟨content, rfl, hseq⟩

variable (ids s) in
theorem grown_commit (seq : ℕ) : s.Grown ids (s.commit seq) :=
  ⟨le_rfl, fun _ he ↦ .inl ((Ordered.rows_commit s seq).subset he)⟩

variable (ids s) in
theorem grown_abort (seq : ℕ) : s.Grown ids (s.abort seq) :=
  ⟨le_rfl, fun _ he ↦ .inl ((Ordered.rows_abort s seq).subset he)⟩

variable (b ids m s) in
/-- The rows have different numbers and ids, and a row that is still pending has attempts left. -/
structure Regular : Prop where
  ordered : s.Ordered b
  named : ∀ e ∈ s.rows, e.eventId = ids e.seq
  tried : ∀ e ∈ s.rows, e.attempts ≤ m ∧ (e.status = .pending → e.attempts < m)

namespace Regular

theorem bounded (h : s.Regular b ids m) {e : OutboxEvent} (he : e ∈ s.events) :
    e.seq ≤ s.eventSeq :=
  h.ordered.bounded e (List.mem_append_left _ he)

/-- No other row that can be read has the id of a row. -/
theorem eq_of_eventId (hids : ids.Injective) (h : s.Regular b ids m) {e : OutboxEvent}
    (he : e ∈ s.events) : ∀ e' ∈ s.rows, e'.eventId = e.eventId → e' = e := by
  intro e' he' hid
  have he := List.mem_append_left s.inserting he
  rw [h.named e' he', h.named e he] at hid
  exact h.ordered.seq_inj he' he (hids hid)

theorem grow (hm : 1 ≤ m) (h : s.Regular b ids m) {s' : Outbox} (hgrown : s.Grown ids s')
    (hordered : s'.Ordered b) : s'.Regular b ids m := by
  refine ⟨hordered, fun e he ↦ ?_, fun e he ↦ ?_⟩
  · rcases hgrown.rows e he with hold | ⟨content, rfl, -⟩
    · exact h.named e hold
    · rfl
  · rcases hgrown.rows e he with hold | ⟨content, rfl, -⟩
    · exact h.tried e hold
    · exact ⟨Nat.zero_le m, fun _ ↦ hm⟩

theorem settle (h : s.Regular b ids m) {e : OutboxEvent} (ok : Bool)
    (hpending : e.status = .pending)
    (hcurrent : ∀ e' ∈ s.events, e'.eventId = e.eventId → e' = e) :
    (s.settle m ok e).Regular b ids m := by
  obtain ⟨status, hsettle, hleft, -⟩ := exists_settle (s := s) m ok e
  rw [hsettle]
  have hmem {P : OutboxEvent → Prop} (hold : ∀ r ∈ s.rows, P r)
      (hnew : e ∈ s.rows → P { e with status := status, attempts := e.attempts + 1 }) :
      ∀ r ∈ (s.markEvent e.eventId status (e.attempts + 1)).rows, P r := by
    intro r hr
    rcases List.mem_append.mp hr with hr | hr
    · obtain ⟨r₀, hr₀, rfl⟩ := List.mem_map.mp hr
      split
      · rename_i hid
        obtain rfl := hcurrent r₀ hr₀ hid
        exact hnew (List.mem_append_left _ hr₀)
      · exact hold r₀ (List.mem_append_left _ hr₀)
    · exact hold r (List.mem_append_right _ hr)
  have hseq : (s.markEvent e.eventId status (e.attempts + 1)).rows.map (·.seq) =
      s.rows.map (·.seq) := by
    rw [rows, rows, List.map_append, List.map_append, markEvent, List.map_map]
    congr 2
    funext r
    dsimp only [Function.comp_apply]
    split <;> rfl
  refine ⟨⟨hseq ▸ h.ordered.distinct, hmem h.ordered.bounded (h.ordered.bounded e), fun hb ↦ ?_,
    h.ordered.direct⟩, hmem h.named (h.named e), hmem h.tried fun he ↦ ?_⟩
  · refine List.pairwise_map.mpr ((h.ordered.sorted hb).imp fun hlt ↦ ?_)
    split <;> split <;> exact hlt
  · exact ⟨(h.tried e he).2 hpending, fun hstill ↦ (hleft hstill).2⟩

end Regular

def Onward (e e' : OutboxEvent) : Prop :=
  e'.seq = e.seq ∧ e.attempts ≤ e'.attempts ∧ (e.status ≠ .pending → e'.status ≠ .pending)

variable (s) in
/-- The rows of a later moment: those that could be read before have moved on, and the others are
new or were under way. -/
structure Since (s' : Outbox) : Prop where
  later : s.eventSeq ≤ s'.eventSeq
  rows : ∀ e' ∈ s'.rows, s.eventSeq < e'.seq ∨ (∃ r ∈ s.inserting, r.seq = e'.seq) ∨
    ∃ e ∈ s.events, Onward e e'

namespace Since

variable {s' : Outbox}

theorem refl (s : Outbox) : s.Since s := by
  refine ⟨le_rfl, fun e he ↦ .inr ?_⟩
  rcases List.mem_append.mp he with he | he
  · exact .inr ⟨e, he, rfl, le_rfl, id⟩
  · exact .inl ⟨e, he, rfl⟩

theorem grow (h : s.Since s') {s'' : Outbox} (hgrown : s'.Grown ids s'') : s.Since s'' := by
  refine ⟨h.later.trans hgrown.later, fun e he ↦ ?_⟩
  rcases hgrown.rows e he with hold | ⟨content, rfl, -⟩
  · exact h.rows e hold
  · exact .inl (Nat.lt_succ_of_le h.later)

theorem settle (h : s.Since s') {e : OutboxEvent} (ok : Bool) (hpending : e.status = .pending)
    (hcurrent : ∀ e' ∈ s'.events, e'.eventId = e.eventId → e' = e) : s.Since
    (s'.settle m ok e) := by
  obtain ⟨status, hsettle, -⟩ := exists_settle (s := s') m ok e
  rw [hsettle]
  refine ⟨h.later, fun r hr ↦ ?_⟩
  rcases List.mem_append.mp hr with hr | hr
  · obtain ⟨r₀, hr₀, rfl⟩ := List.mem_map.mp hr
    split
    · rename_i hid
      obtain rfl := hcurrent r₀ hr₀ hid
      refine (h.rows r₀ (List.mem_append_left _ hr₀)).imp_right (.imp_right ?_)
      rintro ⟨e, he, hseq, hle, hfinal⟩
      exact ⟨e, he, hseq, hle.trans (Nat.le_succ _), fun hne ↦ absurd hpending (hfinal hne)⟩
    · exact h.rows r₀ (List.mem_append_left _ hr₀)
  · exact h.rows r (List.mem_append_right _ hr)

end Since

end Outbox

/-! ## Several workers -/

namespace Delivery

variable {b : Backend} {ids : ℕ → String} {m batchSize : ℕ} {σ : Delivery}

variable (ids m batchSize) in
theorem outbox_step (h : σ.outbox.Ordered b) (x : DeliveryStep) :
    (σ.outbox.Grown ids (σ.step b ids m batchSize x).outbox ∧
        (σ.step b ids m batchSize x).outbox.Ordered b) ∨
      ∃ i e ok, x = .mark i ∧ (σ.workers i).queue.head? = some e ∧ (σ.workers i).answer = some ok ∧
        (σ.step b ids m batchSize x).outbox = σ.outbox.settle m ok e := by
  have hsame : σ.outbox.Grown ids σ.outbox ∧ σ.outbox.Ordered b := ⟨⟨le_rfl, fun _ ↦ .inl⟩, h⟩
  cases x with
  | append content => exact .inl ⟨Outbox.grown_append h content, h.append ids content⟩
  | commit seq => exact .inl ⟨Outbox.grown_commit ids _ seq, h.commit seq⟩
  | abort seq => exact .inl ⟨Outbox.grown_abort ids _ seq, h.abort seq⟩
  | fetch i =>
    rw [step]
    split <;> exact .inl hsame
  | post i ok =>
    rw [step]
    split <;> exact .inl hsame
  | mark i =>
    rw [step]
    split
    · rename_i e ok he hok
      exact .inr ⟨i, e, ok, rfl, he, hok, rfl⟩
    · exact .inl hsame
  | quit i => exact .inl hsame

theorem step_regular (hm : 1 ≤ m) {s : Outbox} (h : σ.outbox.Regular b ids m)
    (hs : s.Since σ.outbox)
    {x : DeliveryStep} (hx : σ.current x = true) :
    (σ.step b ids m batchSize x).outbox.Regular b ids m ∧
      s.Since (σ.step b ids m batchSize x).outbox := by
  rcases outbox_step ids m batchSize h.ordered x with
    ⟨hgrown, hordered⟩ | ⟨i, e, ok, rfl, he, -, heq⟩
  · exact ⟨h.grow hm hgrown hordered, hs.grow hgrown⟩
  · rw [heq]
    have hpending := (σ.workers i).pending e (List.mem_of_mem_head? he)
    have hcurrent : ∀ e' ∈ σ.outbox.events, e'.eventId = e.eventId → e' = e := by
      simpa [current, he, imp_iff_not_or] using hx
    exact ⟨h.settle ok hpending hcurrent, hs.settle ok hpending hcurrent⟩

theorem run_regular (hm : 1 ≤ m) {s : Outbox} (h : σ.outbox.Regular b ids m) (hs : s.Since σ.outbox)
    {steps : List DeliveryStep} (hsteps : σ.Along b ids m batchSize current steps = true) :
    (σ.run b ids m batchSize steps).outbox.Regular b ids m ∧
      s.Since (σ.run b ids m batchSize steps).outbox := by
  induction steps generalizing σ with
  | nil => exact ⟨h, hs⟩
  | cons x rest ih =>
    obtain ⟨hx, hrest⟩ := Bool.and_eq_true_iff.mp hsteps
    obtain ⟨h', hs'⟩ := step_regular hm h hs hx
    exact ih h' hs' hrest

theorem regular_start (b : Backend) (ids : ℕ → String) (m : ℕ) : ({} : Outbox).Regular b ids m :=
  ⟨⟨List.nodup_nil, nofun, fun _ ↦ .nil, fun _ ↦ rfl⟩, nofun, nofun⟩

end Delivery

/-- **Outcomes are final** in a run in which every mark finds the row as it was read: at two moments
of it, an event that was delivered or dead at the first is not pending at the second, and its
attempts are no fewer, and no more than `max_attempts`, which is positive. -/
theorem outcomes_final (b : Backend) {ids : ℕ → String} (hids : ids.Injective) {m : ℕ} (hm : 1 ≤ m)
    (batchSize : ℕ) (before after : List DeliveryStep)
    (hbefore : ({} : Delivery).Along b ids m batchSize Delivery.current before = true)
    (hafter : (({} : Delivery).run b ids m batchSize before).Along b ids m batchSize
      Delivery.current after = true) :
    let σ := ({} : Delivery).run b ids m batchSize before
    ∀ e ∈ σ.outbox.events, ∀ e' ∈ (σ.run b ids m batchSize after).outbox.events,
      e'.eventId = e.eventId → (e.status ≠ .pending → e'.status ≠ .pending) ∧
        e.attempts ≤ e'.attempts ∧ e'.attempts ≤ m := by
  intro σ e he e' he' hid
  have h : σ.outbox.Regular b ids m :=
    (Delivery.run_regular hm (Delivery.regular_start b ids m) (.refl _) hbefore).1
  obtain ⟨h', hsince⟩ := Delivery.run_regular hm h (.refl _) hafter
  have hrow := List.mem_append_left σ.outbox.inserting he
  have hrow' := List.mem_append_left (σ.run b ids m batchSize after).outbox.inserting he'
  rw [h'.named e' hrow', h.named e hrow] at hid
  have hseq : e'.seq = e.seq := hids hid
  rcases hsince.rows e' hrow' with hnew | ⟨r, hr, hseq'⟩ | ⟨r, hr, hseq', hle, hfinal⟩
  · exact absurd (h.bounded he) (not_le.mpr (hseq ▸ hnew))
  · exact absurd (hseq'.trans hseq).symm (h.ordered.seq_ne he hr)
  · obtain rfl := h.ordered.seq_inj (List.mem_append_left _ hr) hrow (hseq'.symm.trans hseq)
    exact ⟨hfinal, hle, (h'.tried e' hrow').1⟩

namespace Sample

theorem eventIds_injective : eventIds.Injective := by
  intro n n' h
  have h' := congrArg String.length h
  simpa [eventIds] using h'

def created : DeliveryStep := .append ⟨"tenant.created", "acme"⟩

def committed : List DeliveryStep := [created, .commit 1]

def tick (i : ℕ) (ok : Bool) : List DeliveryStep := [.fetch i, .post i ok, .mark i]

end Sample

open Sample in
/-- Two workers, one after the other: the event is posted in vain, and then delivered. -/
theorem outcomes_final_in_turn :
    let σ := ({} : Delivery).run eventDb eventIds 5 20 (committed ++ tick 0 false)
    let σ' := σ.run eventDb eventIds 5 20 (tick 1 true)
    σ'.outbox.events.map (fun e ↦ (e.status, e.attempts)) = [(.delivered, 2)] ∧
      ∀ e ∈ σ.outbox.events, ∀ e' ∈ σ'.outbox.events, e'.eventId = e.eventId →
        e.attempts ≤ e'.attempts ∧ e'.attempts ≤ 5 := by
  refine ⟨by decide +kernel, fun e he e' he' hid ↦ ?_⟩
  exact (outcomes_final eventDb eventIds_injective (by decide) 20 (committed ++ tick 0 false)
    (tick 1 true) (by decide +kernel) (by decide +kernel) e he e' he' hid).2

open Sample in
/-- **A delivered event becomes pending again.** Two workers read the event; the post of the first
is answered with 2xx and the event marked as delivered; the post of the second fails, and it marks
the event as pending. -/
theorem delivered_then_pending :
    let σ := ({} : Delivery).run eventDb eventIds 5 20
      (committed ++ [.fetch 0, .fetch 1, .post 0 true, .mark 0])
    let σ' := σ.run eventDb eventIds 5 20 [.post 1 false, .mark 1]
    σ.outbox.events.map (·.status) = [.delivered] ∧
      σ'.outbox.events.map (·.status) = [.pending] := by
  decide +kernel

/-! ## A single worker -/

namespace Outbox

variable {b : Backend} {ids : ℕ → String} {m limit : ℕ} {s : Outbox}

variable (s) in
/-- How many pending events have a number of some kind. -/
def waiting (p : ℕ → Bool) : ℕ := (s.events.filter (·.status = .pending)).countP fun e ↦ p e.seq

theorem waiting_add {n n' : ℕ} (hle : n ≤ n') :
    s.waiting (· < n') = s.waiting (· < n) + s.waiting fun k ↦ n ≤ k && k < n' := by
  rw [waiting, waiting, waiting]
  induction s.events.filter (·.status = .pending) with
  | nil => rfl
  | cons e rest ih =>
    simp only [List.countP_cons, ih, Bool.and_eq_true, decide_eq_true_eq]
    split_ifs <;> omega

/-- A pending event that is not in the batch has a whole batch before it. -/
theorem Ordered.exists_of_not_mem (h : s.Ordered b) (hlimit : 1 ≤ limit) {e : OutboxEvent}
    (he : e ∈ s.events) (hpending : e.status = .pending) (hnot : e ∉ s.pendingEvents b limit) :
    ∃ f ∈ s.events, f.status = .pending ∧ f.seq ≤ e.seq ∧
      limit ≤ s.waiting fun k ↦ f.seq ≤ k && k < e.seq := by
  rw [pendingEvents] at hnot
  simp only [waiting, ← (inOrder_perm (b := b) (s.events.filter (·.status = .pending))).countP_eq]
  have hsorted := h.pairwise_inOrder (·.status = .pending)
  have hmem : e ∈ inOrder b (s.events.filter (·.status = .pending)) :=
    mem_inOrder.mpr (List.mem_filter.mpr ⟨he, by simp [hpending]⟩)
  have hrows {f : OutboxEvent} (hf : f ∈ inOrder b (s.events.filter (·.status = .pending))) :
      f ∈ s.events ∧ f.status = .pending := by simpa using mem_inOrder.mp hf
  generalize inOrder b (s.events.filter (·.status = .pending)) = rows at hnot hsorted hmem hrows ⊢
  rw [← List.take_append_drop limit rows] at hmem hsorted
  have hlater := (List.mem_append.mp hmem).resolve_left hnot
  obtain ⟨hbatch, -, hbefore⟩ := List.pairwise_append.mp hsorted
  have hlength : (rows.take limit).length = limit := by
    have hpos := List.length_pos_of_mem hlater
    rw [List.length_drop] at hpos
    rw [List.length_take]
    omega
  obtain ⟨f, batch, hcons⟩ := List.exists_cons_of_length_pos (hlength.symm ▸ hlimit)
  have hf : f ∈ rows.take limit := hcons ▸ List.mem_cons_self
  obtain ⟨hfmem, hfpending⟩ := hrows (List.mem_of_mem_take hf)
  refine ⟨f, hfmem, hfpending, (hbefore f hf e hlater).le, ?_⟩
  calc limit = (rows.take limit).countP fun g ↦ f.seq ≤ g.seq && g.seq < e.seq := by
        refine (hlength ▸ (List.countP_eq_length.mpr fun g hg ↦ ?_)).symm
        have hle : f.seq ≤ g.seq := by
          rw [hcons] at hbatch hg
          rcases List.mem_cons.mp hg with rfl | hg
          · exact le_rfl
          · exact ((List.pairwise_cons.mp hbatch).1 g hg).le
        simp [hle, hbefore g hg e hlater]
    _ ≤ _ := (List.take_sublist limit rows).countP_le

end Outbox

namespace Delivery

variable {b : Backend} {ids : ℕ → String} {m batchSize n : ℕ} {σ σ₀ : Delivery}

variable (b) in
/-- A call or a post of worker 0, or a call that appends an event while there is room. -/
def lone (σ : Delivery) : DeliveryStep → Bool
  | .append _ =>
    match b with
    | .inMemory => σ.outbox.events.length < auditCap
    | .postgres _ => true
  | .commit _ | .abort _ => true
  | .fetch i | .post i _ | .mark i => i = 0
  | .quit _ => false

variable (ids m batchSize) in
/-- What the calls of `append_event` do: the rows that can be read from then on are the one that is
appended, or were under way. -/
theorem exists_grown (h : σ.outbox.Ordered b) {x : DeliveryStep} (hx : σ.lone b x = true)
    (happends : x.appends = true) :
    ∃ outbox, σ.step b ids m batchSize x = { σ with outbox } ∧ σ.outbox.Grown ids outbox ∧
      outbox.Ordered b ∧ ∃ new, outbox.events = σ.outbox.events ++ new ∧
        ∀ e ∈ new ++ outbox.inserting, e ∈ σ.outbox.inserting ∨ e.seq = σ.outbox.eventSeq + 1 := by
  cases x with
  | append content =>
    refine ⟨_, rfl, Outbox.grown_append h content, h.append ids content, ?_⟩
    cases b with
    | inMemory =>
      have hroom : σ.outbox.events.length < auditCap := of_decide_eq_true hx
      rw [Outbox.appendEvent, appendCapped_of_lt hroom]
      refine ⟨_, rfl, fun e he ↦ ?_⟩
      rcases List.mem_append.mp he with he | he
      · exact .inr (congrArg OutboxEvent.seq (List.mem_singleton.mp he))
      · exact .inl he
    | postgres cfg =>
      refine ⟨[], (List.append_nil _).symm, fun e he ↦ ?_⟩
      rcases List.mem_append.mp (List.nil_append _ ▸ he) with he | he
      · exact .inl he
      · exact .inr (congrArg OutboxEvent.seq (List.mem_singleton.mp he))
  | commit seq =>
    refine ⟨_, rfl, Outbox.grown_commit ids _ seq, h.commit seq, _, rfl, fun e he ↦ .inl ?_⟩
    rcases List.mem_append.mp he with he | he
    · exact (List.mem_filter.mp he).1
    · exact (List.mem_filter.mp he).1
  | abort seq => exact ⟨_, rfl, Outbox.grown_abort ids _ seq, h.abort seq, [],
      (List.append_nil _).symm, fun e he ↦ .inl (List.mem_filter.mp he).1⟩
  | fetch | post | mark | quit => cases happends

/-- The post of the worker whose event is not marked yet. -/
def unmarked (σ : Delivery) : List (ℕ × Bool) :=
  match (σ.workers 0).queue.head?, (σ.workers 0).answer with
  | some e, some ok => [(e.seq, ok)]
  | _, _ => []

variable (b ids m σ) in
/-- With a single worker: what it has read is still so, and of a pending event there are as many
posts, which all have failed, as attempts. -/
structure Attended : Prop where
  regular : σ.outbox.Regular b ids m
  queued : ∀ e ∈ (σ.workers 0).queue, e ∈ σ.outbox.events
  spaced : (σ.workers 0).queue.Pairwise (·.seq < ·.seq)
  posts : ∃ done, σ.posts = done ++ σ.unmarked ∧ (∀ q ∈ done, q.1 ≤ σ.outbox.eventSeq) ∧
    ∀ e ∈ σ.outbox.rows, e.status = .pending →
      (done.filter (·.1 = e.seq)).map (·.2) = List.replicate e.attempts false

namespace Attended

theorem current (hids : ids.Injective) (h : σ.Attended b ids m) {e : OutboxEvent}
    (he : e ∈ (σ.workers 0).queue) : ∀ e' ∈ σ.outbox.events, e'.eventId = e.eventId → e' = e :=
  fun e' he' ↦ h.regular.eq_of_eventId hids (h.queued e he) e' (List.mem_append_left _ he')

theorem grow (hm : 1 ≤ m) (h : σ.Attended b ids m) {outbox : Outbox}
    (hgrown : σ.outbox.Grown ids outbox) (hordered : outbox.Ordered b) {new : List OutboxEvent}
    (hevents : outbox.events = σ.outbox.events ++ new) : { σ with outbox }.Attended b ids m := by
  obtain ⟨done, hposts, hbounded, hdone⟩ := h.posts
  refine ⟨h.regular.grow hm hgrown hordered, fun e he ↦ ?_, h.spaced, done, hposts,
    fun q hq ↦ (hbounded q hq).trans hgrown.later, fun e he hpending ↦ ?_⟩
  · exact hevents ▸ List.mem_append_left _ (h.queued e he)
  rcases hgrown.rows e he with hold | ⟨content, rfl, -⟩
  · exact hdone e hold hpending
  · have hnone : done.filter (·.1 = σ.outbox.eventSeq + 1) = [] := by
      refine List.filter_eq_nil_iff.mpr fun q hq heq ↦ ?_
      have hle := hbounded q hq
      rw [of_decide_eq_true heq] at hle
      exact absurd hle (Nat.not_succ_le_self _)
    exact congrArg (List.map _) hnone

theorem fetch (h : σ.Attended b ids m) :
    (σ.step b ids m batchSize (.fetch 0)).Attended b ids m := by
  rw [step]
  split
  · rename_i hidle
    have hnone : σ.unmarked = [] := by simp [unmarked, hidle]
    obtain ⟨done, hposts, hdone⟩ := h.posts
    have hsorted : (σ.outbox.pendingEvents b batchSize).Pairwise (·.seq < ·.seq) :=
      (h.regular.ordered.pairwise_inOrder _).sublist (List.take_sublist _ _)
    refine ⟨h.regular, fun e he ↦ ?_, hsorted, done, ?_, hdone⟩
    · have hbatch : e ∈ σ.outbox.pendingEvents b batchSize := he
      exact (Outbox.pending_of_mem hbatch).1
    · rw [hposts, hnone]
      simp [unmarked, Worker.ticked]
  · exact h

theorem post (h : σ.Attended b ids m) (ok : Bool) :
    (σ.step b ids m batchSize (.post 0 ok)).Attended b ids m := by
  rw [step]
  split
  · rename_i e he hnone
    obtain ⟨done, hposts, hdone⟩ := h.posts
    have hbefore : σ.unmarked = [] := by simp [unmarked, hnone]
    refine ⟨h.regular, h.queued, h.spaced, done, ?_, hdone⟩
    rw [hposts, hbefore]
    simp [unmarked, Worker.posted, he]
  · exact h

theorem mark (hids : ids.Injective) (h : σ.Attended b ids m) :
    (σ.step b ids m batchSize (.mark 0)).Attended b ids m := by
  rw [step]
  split
  · rename_i e ok he hok
    have hmem := List.mem_of_mem_head? he
    have hcurrent := h.current hids hmem
    have hpending := (σ.workers 0).pending e hmem
    obtain ⟨rest, hqueue⟩ : ∃ rest, (σ.workers 0).queue = e :: rest := List.head?_eq_some_iff.mp he
    have hspaced := h.spaced
    rw [hqueue, List.pairwise_cons] at hspaced
    obtain ⟨done, hposts, hbounded, hdone⟩ := h.posts
    obtain ⟨status, hsettle, hleft, -⟩ := Outbox.exists_settle (s := σ.outbox) m ok e
    refine ⟨h.regular.settle ok hpending hcurrent, ?_, ?_, done ++ [(e.seq, ok)], ?_, ?_, ?_⟩
    · intro r hr
      have hr : r ∈ (σ.workers 0).queue.tail := hr
      rw [hqueue, List.tail_cons] at hr
      have hrow := h.queued r (hqueue ▸ List.mem_cons_of_mem _ hr)
      have hne : r.eventId ≠ e.eventId := fun hid ↦
        (hspaced.1 r hr).ne' (congrArg OutboxEvent.seq (hcurrent r hrow hid))
      exact hsettle ▸ List.mem_map.mpr ⟨r, hrow, if_neg hne⟩
    · change (σ.workers 0).queue.tail.Pairwise _
      rw [hqueue]
      exact hspaced.2
    · rw [hposts]
      simp [unmarked, he, hok, Worker.marked]
    · have hlast := h.regular.bounded (h.queued e hmem)
      rw [hsettle]
      intro q hq
      rcases List.mem_append.mp hq with hq | hq
      · exact hbounded q hq
      · exact List.mem_singleton.mp hq ▸ hlast
    · rw [hsettle]
      intro r hr hstill
      have hother {r : OutboxEvent} (hr : r ∈ σ.outbox.rows) (hstatus : r.status = .pending)
          (hne : e.seq ≠ r.seq) : ((done ++ [(e.seq, ok)]).filter (·.1 = r.seq)).map (·.2) =
            List.replicate r.attempts false := by
        rw [List.filter_append, List.map_append, hdone r hr hstatus]
        simp [hne]
      rcases List.mem_append.mp hr with hr | hr
      swap
      · exact hother (List.mem_append_right _ hr) hstill
          (h.regular.ordered.seq_ne (h.queued e hmem) hr)
      obtain ⟨r₀, hr₀, rfl⟩ := List.mem_map.mp hr
      have hrow := List.mem_append_left σ.outbox.inserting hr₀
      split
      · rename_i hid
        obtain rfl := hcurrent r₀ hr₀ hid
        rw [if_pos hid] at hstill
        rw [List.filter_append, List.map_append, hdone r₀ hrow hpending, (hleft hstill).1,
          List.replicate_succ']
        simp
      · rename_i hid
        rw [if_neg hid] at hstill
        refine hother hrow hstill fun hseq ↦ hid ?_
        rw [h.regular.ordered.seq_inj (List.mem_append_left _ (h.queued e hmem)) hrow hseq]
  · exact h

theorem step (hids : ids.Injective) (hm : 1 ≤ m) (h : σ.Attended b ids m) {x : DeliveryStep}
    (hx : σ.lone b x = true) : (σ.step b ids m batchSize x).Attended b ids m := by
  cases x with
  | append | commit | abort =>
    obtain ⟨outbox, heq, hgrown, hordered, new, hevents, -⟩ :=
      exists_grown ids m batchSize h.regular.ordered hx rfl
    exact heq ▸ h.grow hm hgrown hordered hevents
  | fetch i => exact of_decide_eq_true hx ▸ h.fetch
  | post i ok => exact of_decide_eq_true hx ▸ h.post ok
  | mark i => exact of_decide_eq_true hx ▸ h.mark hids
  | quit i => cases hx

end Attended

/-- From a moment on at which no insert with a number up to `n` was under way: the events of that
moment are still there, of any kind of numbers up to `n` no more are pending, and each one that is
pending was posted in every tick but those it had to wait for the events before it. -/
structure Waits (m batchSize n : ℕ) (σ₀ σ : Delivery) : Prop where
  later : n ≤ σ.outbox.eventSeq
  settled : ∀ r ∈ σ.outbox.inserting, n < r.seq
  kept : ∀ e ∈ σ₀.outbox.events, ∃ e' ∈ σ.outbox.events, e'.seq = e.seq
  fewer : ∀ p : ℕ → Bool, (∀ k, p k = true → k ≤ n) → σ.outbox.waiting p ≤ σ₀.outbox.waiting p
  owed : ∀ e ∈ σ.outbox.events, e.status = .pending → e.seq ≤ n →
    (σ.workers 0).ticks ≤ (σ₀.workers 0).ticks +
      m * (σ₀.outbox.waiting (· < e.seq) / batchSize) + e.attempts +
        if e ∈ (σ.workers 0).queue then 1 else 0

namespace Waits

theorem refl (m batchSize : ℕ) {n : ℕ} {σ : Delivery} (hlater : n ≤ σ.outbox.eventSeq)
    (hsettled : ∀ r ∈ σ.outbox.inserting, n < r.seq) : σ.Waits m batchSize n σ :=
  ⟨hlater, hsettled, fun e he ↦ ⟨e, he, rfl⟩, fun _ _ ↦ le_rfl, fun _ _ _ _ ↦ by omega⟩

theorem grow (h : σ₀.Waits m batchSize n σ) {outbox : Outbox} (hgrown : σ.outbox.Grown ids outbox)
    {new : List OutboxEvent} (hevents : outbox.events = σ.outbox.events ++ new)
    (hnew : ∀ e ∈ new ++ outbox.inserting, e ∈ σ.outbox.inserting ∨ e.seq = σ.outbox.eventSeq + 1) :
    σ₀.Waits m batchSize n { σ with outbox } := by
  have hlarge : ∀ e ∈ new ++ outbox.inserting, n < e.seq := by
    intro e he
    rcases hnew e he with hold | hseq
    · exact h.settled e hold
    · exact hseq ▸ Nat.lt_succ_of_le h.later
  refine ⟨h.later.trans hgrown.later, fun r hr ↦ hlarge r (List.mem_append_right _ hr),
    fun e he ↦ ?_,
    fun p hp ↦ ?_, fun e he ↦ ?_⟩
  · obtain ⟨e', he', hseq⟩ := h.kept e he
    exact ⟨e', hevents ▸ List.mem_append_left _ he', hseq⟩
  · refine le_trans (le_of_eq ?_) (h.fewer p hp)
    have hnone : (new.filter (·.status = .pending)).countP (fun e ↦ p e.seq) = 0 := by
      refine List.countP_eq_zero.mpr fun e he hpe ↦ ?_
      have hmem := List.mem_append_left outbox.inserting (List.mem_filter.mp he).1
      exact absurd (hp _ hpe) (not_le.mpr (hlarge e hmem))
    simp only [Outbox.waiting, hevents, List.filter_append, List.countP_append, hnone, add_zero]
  · rcases List.mem_append.mp (hevents ▸ he) with he | he
    · exact h.owed e he
    · exact fun _ hle ↦ absurd hle (not_le.mpr (hlarge e (List.mem_append_left _ he)))

theorem fetch (hbatch : 1 ≤ batchSize) (hσ : σ.Attended b ids m) (h : σ₀.Waits m batchSize n σ) :
    σ₀.Waits m batchSize n (σ.step b ids m batchSize (.fetch 0)) := by
  rw [step]
  split
  · rename_i hidle
    refine ⟨h.later, h.settled, h.kept, h.fewer, fun e he hpending hle ↦ ?_⟩
    have howed {f : OutboxEvent} (hf : f ∈ σ.outbox.events) (hstatus : f.status = .pending)
        (hold : f.seq ≤ n) : (σ.workers 0).ticks ≤ (σ₀.workers 0).ticks +
          m * (σ₀.outbox.waiting (· < f.seq) / batchSize) + f.attempts := by
      simpa [hidle] using h.owed f hf hstatus hold
    change (σ.workers 0).ticks + 1 ≤ (σ₀.workers 0).ticks +
      m * (σ₀.outbox.waiting (· < e.seq) / batchSize) + e.attempts +
        if e ∈ σ.outbox.pendingEvents b batchSize then 1 else 0
    split_ifs with hin
    · exact Nat.succ_le_succ (howed he hpending hle)
    -- the first pending event is a batch ahead, and it has not been posted `max_attempts` times
    · obtain ⟨f, hf, hfpending, hbefore, hahead⟩ :=
        hσ.regular.ordered.exists_of_not_mem hbatch he hpending hin
      have hbetween : batchSize ≤ σ₀.outbox.waiting fun k ↦ f.seq ≤ k && k < e.seq := by
        refine hahead.trans (h.fewer _ fun k hk ↦ ?_)
        simp only [Bool.and_eq_true, decide_eq_true_eq] at hk
        exact hk.2.le.trans hle
      have hdiv : σ₀.outbox.waiting (· < f.seq) / batchSize + 1 ≤
          σ₀.outbox.waiting (· < e.seq) / batchSize := by
        rw [Outbox.waiting_add hbefore, ← Nat.add_div_right _ hbatch]
        exact Nat.div_le_div_right (Nat.add_le_add_left hbetween _)
      have hmul := Nat.mul_le_mul_left m hdiv
      have hticks := howed hf hfpending (hbefore.trans hle)
      have htried := (hσ.regular.tried f (List.mem_append_left _ hf)).2 hfpending
      rw [Nat.mul_add] at hmul
      omega
  · exact h

theorem mark (hids : ids.Injective) (hσ : σ.Attended b ids m) (h : σ₀.Waits m batchSize n σ) :
    σ₀.Waits m batchSize n (σ.step b ids m batchSize (.mark 0)) := by
  rw [step]
  split
  · rename_i e ok he hok
    have hmem := List.mem_of_mem_head? he
    have hcurrent := hσ.current hids hmem
    have hpending := (σ.workers 0).pending e hmem
    obtain ⟨status, hsettle, -⟩ := Outbox.exists_settle (s := σ.outbox) m ok e
    rw [hsettle]
    refine ⟨h.later, h.settled, fun r hr ↦ ?_, fun p hp ↦ ?_, fun r hr hstill hle ↦ ?_⟩
    · obtain ⟨r', hr', hseq⟩ := h.kept r hr
      refine ⟨_, List.mem_map_of_mem hr', Eq.trans ?_ hseq⟩
      split <;> rfl
    · refine le_trans ?_ (h.fewer p hp)
      simp only [Outbox.waiting, Outbox.markEvent, List.countP_filter, List.countP_map]
      refine List.countP_mono_left fun r hr hboth ↦ ?_
      by_cases hid : r.eventId = e.eventId
      · obtain rfl := hcurrent r hr hid
        simp only [Function.comp_apply, if_pos, Bool.and_eq_true] at hboth
        simp [hboth.1, hpending]
      · simpa [hid] using hboth
    · obtain ⟨r₀, hr₀, rfl⟩ := List.mem_map.mp hr
      change (σ.workers 0).ticks ≤ _ + if _ ∈ (σ.workers 0).queue.tail then 1 else 0
      obtain ⟨rest, hqueue⟩ : ∃ rest, (σ.workers 0).queue = e :: rest :=
        List.head?_eq_some_iff.mp he
      by_cases hid : r₀.eventId = e.eventId
      · obtain rfl := hcurrent r₀ hr₀ hid
        simp only [if_pos] at hle ⊢
        have howed := h.owed r₀ hr₀ hpending hle
        rw [if_pos hmem] at howed
        omega
      · simp only [if_neg hid] at hle hstill ⊢
        have howed := h.owed r₀ hr₀ hstill hle
        have hne : r₀ ≠ e := fun heq ↦ hid (congrArg OutboxEvent.eventId heq)
        simpa [hqueue, hne] using howed
  · exact h

theorem step (hids : ids.Injective) (hbatch : 1 ≤ batchSize) (hσ : σ.Attended b ids m)
    (h : σ₀.Waits m batchSize n σ) {x : DeliveryStep} (hx : σ.lone b x = true) :
    σ₀.Waits m batchSize n (σ.step b ids m batchSize x) := by
  cases x with
  | append | commit | abort =>
    obtain ⟨outbox, heq, hgrown, -, new, hevents, hnew⟩ :=
      exists_grown ids m batchSize hσ.regular.ordered hx rfl
    exact heq ▸ h.grow hgrown hevents hnew
  | fetch i => exact of_decide_eq_true hx ▸ h.fetch hbatch hσ
  | post i ok =>
    obtain rfl : i = 0 := of_decide_eq_true hx
    rw [Delivery.step]
    split
    · exact ⟨h.later, h.settled, h.kept, h.fewer, h.owed⟩
    · exact h
  | mark i => exact of_decide_eq_true hx ▸ h.mark hids hσ
  | quit i => cases hx

theorem run (hids : ids.Injective) (hm : 1 ≤ m) (hbatch : 1 ≤ batchSize) (hσ : σ.Attended b ids m)
    (h : σ₀.Waits m batchSize n σ) {steps : List DeliveryStep}
    (hsteps : σ.Along b ids m batchSize (lone b) steps = true) :
    (σ.run b ids m batchSize steps).Attended b ids m ∧
      σ₀.Waits m batchSize n (σ.run b ids m batchSize steps) := by
  induction steps generalizing σ with
  | nil => exact ⟨hσ, h⟩
  | cons x rest ih =>
    obtain ⟨hx, hrest⟩ := Bool.and_eq_true_iff.mp hsteps
    exact ih (hσ.step hids hm hx) (h.step hids hbatch hσ hx) hrest

end Waits

theorem attended_start (b : Backend) (ids : ℕ → String) (m : ℕ) :
    ({} : Delivery).Attended b ids m :=
  ⟨regular_start b ids m, nofun, .nil, [], rfl, nofun, nofun⟩

/-- A step after which an event that was pending is dead or delivered. -/
theorem Attended.decided (hids : ids.Injective) (h : σ.Attended b ids m) {x : DeliveryStep}
    (hx : σ.lone b x = true) {e e' : OutboxEvent} (he : e ∈ σ.outbox.events)
    (hpending : e.status = .pending) (he' : e' ∈ (σ.step b ids m batchSize x).outbox.events)
    (hid : e'.eventId = e.eventId) :
    (e'.status = .dead → (σ.posts.filter (·.1 = e.seq)).map (·.2) = List.replicate m false) ∧
      (e'.status = .delivered → σ.posts.getLast? = some (e.seq, true)) := by
  have hrow := h.regular.eq_of_eventId hids he
  have hsame (heq : e' = e) : (e'.status = .dead →
      (σ.posts.filter (·.1 = e.seq)).map (·.2) = List.replicate m false) ∧
        (e'.status = .delivered → σ.posts.getLast? = some (e.seq, true)) := by
    rw [heq, hpending]
    exact ⟨nofun, nofun⟩
  rcases outbox_step ids m batchSize h.regular.ordered x with
    ⟨hgrown, -⟩ | ⟨i, f, ok, rfl, hf, hok, heq⟩
  · rcases hgrown.rows e' (List.mem_append_left _ he') with hold | ⟨content, rfl, -⟩
    · exact hsame (hrow e' hold hid)
    · have hseq : σ.outbox.eventSeq + 1 = e.seq :=
        hids (hid.trans (h.regular.named e (List.mem_append_left _ he)))
      have hle := h.regular.bounded he
      omega
  · rw [heq] at he'
    obtain rfl : i = 0 := of_decide_eq_true hx
    have hcurrent := h.current hids (List.mem_of_mem_head? hf)
    obtain ⟨status, hsettle, -, hdelivered, hdead⟩ := Outbox.exists_settle (s := σ.outbox) m ok f
    rw [hsettle] at he'
    obtain ⟨r, hr, rfl⟩ := List.mem_map.mp he'
    have hmem := List.mem_append_left σ.outbox.inserting hr
    by_cases hfid : r.eventId = f.eventId
    · rw [if_pos hfid] at hid ⊢
      obtain rfl := hrow r hmem hid
      obtain rfl := hcurrent r hr hfid
      obtain ⟨done, hposts, -, hdone⟩ := h.posts
      rw [hposts]
      simp only [unmarked, hf, hok, List.filter_append, List.map_append, hdone r hmem hpending]
      refine ⟨fun hstatus ↦ ?_, fun hstatus ↦ ?_⟩
      · obtain ⟨rfl, hle⟩ := hdead hstatus
        rw [Nat.le_antisymm hle ((h.regular.tried r hmem).2 hpending), List.replicate_succ']
        simp
      · simp [hdelivered hstatus]
    · rw [if_neg hfid] at hid
      exact hsame ((if_neg hfid).trans (hrow r hmem hid))

end Delivery

/-- **Webhook delivery makes progress.** A single worker is not stopped, none of its calls fails and
no event falls off. An event with `p` pending events before it, and no smaller number still to be
committed, is delivered or dead once the worker has gone through `max_attempts * (p / batch_size +
1)` further ticks. A step after which an event is dead comes after exactly `max_attempts` failed
posts of it, and one after which it is delivered right after a post of it that was answered with
2xx. -/
theorem webhook_progress (b : Backend) {ids : ℕ → String} (hids : ids.Injective) {m batchSize : ℕ}
    (hm : 1 ≤ m) (hbatch : 1 ≤ batchSize) {before : List DeliveryStep} {σ : Delivery}
    (hbefore : ({} : Delivery).Along b ids m batchSize (Delivery.lone b) before = true)
    (hσ : ({} : Delivery).run b ids m batchSize before = σ) :
    ∀ e ∈ σ.outbox.events, e.status = .pending →
      ((∀ r ∈ σ.outbox.inserting, e.seq < r.seq) →
        ∀ after σ', σ.Along b ids m batchSize (Delivery.lone b) after = true →
        σ.run b ids m batchSize after = σ' → (σ'.workers 0).queue = [] →
        (σ.workers 0).ticks + m * (σ.outbox.waiting (· < e.seq) / batchSize + 1) ≤
          (σ'.workers 0).ticks → ∃ e' ∈ σ'.outbox.events, e'.eventId = e.eventId ∧
          (e'.status = .delivered ∨ e'.status = .dead)) ∧
      ∀ x, σ.lone b x = true → ∀ e' ∈ (σ.step b ids m batchSize x).outbox.events,
        e'.eventId = e.eventId →
        (e'.status = .dead → (σ.posts.filter (·.1 = e.seq)).map (·.2) = List.replicate m false) ∧
          (e'.status = .delivered → σ.posts.getLast? = some (e.seq, true)) := by
  subst hσ
  intro e he hpending
  have h := (Delivery.Waits.run hids hm hbatch (Delivery.attended_start b ids m)
    (.refl m batchSize (Nat.zero_le _) nofun) hbefore).1
  refine ⟨?_, fun x hx e' he' hid ↦ h.decided hids hx he hpending he' hid⟩
  rintro hsettled after σ' hafter rfl hidle hticks
  obtain ⟨h', hwaits⟩ := Delivery.Waits.run hids hm hbatch h
    (.refl m batchSize (h.regular.bounded he) hsettled) hafter
  obtain ⟨e', he', hseq⟩ := hwaits.kept e he
  refine ⟨e', he', ?_, ?_⟩
  · rw [h'.regular.named e' (List.mem_append_left _ he'), hseq,
      h.regular.named e (List.mem_append_left _ he)]
  · cases hstatus : e'.status with
    | delivered => exact .inl rfl
    | dead => exact .inr rfl
    | pending =>
      have howed := hwaits.owed e' he' hstatus hseq.le
      have hleft := (h'.regular.tried e' (List.mem_append_left _ he')).2 hstatus
      rw [hidle, if_neg List.not_mem_nil, hseq] at howed
      rw [Nat.mul_add] at hticks
      omega

open Sample in
/-- Batches of one event and two attempts: the second of two events waits for the first, which is
posted twice in vain, and is dead itself after four ticks. -/
theorem webhook_progress_second :
    ∃ σ σ', ({} : Delivery).run eventDb eventIds 2 1 [created, created, .commit 2, .commit 1] = σ ∧
      σ.run eventDb eventIds 2 1 (List.replicate 4 (tick 0 false)).flatten = σ' ∧
      ∃ e ∈ σ.outbox.events, σ.outbox.waiting (· < e.seq) = 1 ∧
        ∃ e' ∈ σ'.outbox.events, e'.eventId = e.eventId ∧
          (e'.status = .delivered ∨ e'.status = .dead) := by
  obtain ⟨σ, hσ⟩ : ∃ σ, ({} : Delivery).run eventDb eventIds 2 1
    [created, created, .commit 2, .commit 1] = σ := ⟨_, rfl⟩
  obtain ⟨σ', hσ'⟩ : ∃ σ', σ.run eventDb eventIds 2 1
      (List.replicate 4 (tick 0 false)).flatten = σ' :=
    ⟨_, rfl⟩
  have hsecond : σ.outbox.inserting = [] ∧
      ∃ e ∈ σ.outbox.events, e.status = .pending ∧ σ.outbox.waiting (· < e.seq) = 1 := by
    rw [← hσ]
    decide +kernel
  obtain ⟨hcommitted, e, he, hpending, hwaiting⟩ := hsecond
  refine ⟨σ, σ', hσ, hσ', e, he, hwaiting, ?_⟩
  refine (webhook_progress eventDb eventIds_injective (by decide) (by decide) (by decide +kernel) hσ
    e he hpending).1 (by simp [hcommitted]) _ σ' ?_ hσ' ?_ ?_
  · rw [← hσ]
    decide +kernel
  · rw [← hσ', ← hσ]
    decide +kernel
  · rw [hwaiting, ← hσ', ← hσ]
    decide +kernel

open Sample in
/-- **A late commit goes ahead.** The second event is pending with none before it; a smaller number
is committed, and one attempt and batches of one event later the second one is still pending. -/
theorem late_commit_goes_ahead :
    let σ := ({} : Delivery).run eventDb eventIds 1 1 [created, created, .commit 2]
    let σ' := σ.run eventDb eventIds 1 1 (.commit 1 :: tick 0 true)
    σ.Along eventDb eventIds 1 1 (Delivery.lone eventDb) (.commit 1 :: tick 0 true) = true ∧
      σ.outbox.events.map (·.seq) = [2] ∧ σ.outbox.waiting (· < 2) = 0 ∧
      (σ.workers 0).ticks + 1 * (0 / 1 + 1) ≤ (σ'.workers 0).ticks ∧ (σ'.workers 0).queue = [] ∧
      σ'.outbox.events.map (fun e ↦ (e.seq, e.status)) = [(2, .pending), (1, .delivered)] := by
  decide +kernel

end FusionIdentity
