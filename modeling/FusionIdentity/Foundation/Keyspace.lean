import FusionIdentity.Foundation.Dict
import Mathlib.Algebra.Order.Ring.Int

/-!
# Keyspaces whose keys expire

A key–value server in the manner of Redis. Every key may carry a deadline, and once it has passed
the key does not exist for any command, whether or not the server has removed it yet. So everything
is said about what the server *finds* under a key at a time.

`put` replaces a key together with its deadline, `del` removes it, `expireAt` sets the deadline of a
key that exists, and `alter` rewrites the value and leaves the deadline alone. Two servers that find
the same under a key go on doing so under the same commands (`Agree`).

The second half is about sorted sets: members with integer scores. No key holds an empty set.
-/

namespace Foundation

/-- A value, and the deadline of its key if it has one. -/
structure Entry (T V : Type*) where
  value : V
  deadline : Option T
  deriving DecidableEq

/-- The entry still exists at time `now`. -/
def Entry.alive {T V : Type*} [LinearOrder T] (e : Entry T V) (now : T) : Bool :=
  e.deadline.all (now ≤ ·)

/-- What the server has stored. -/
structure Keyspace (T V : Type*) where
  stored : Dict String (Entry T V) := ∅

namespace Keyspace

variable {T V : Type*} [LinearOrder T] (ks : Keyspace T V) (now : T) (k : String)

/-- What the server finds under `k` at time `now`. -/
def find : Option (Entry T V) := (ks.stored.get? k).filter (·.alive now)

def get : Option V := (ks.find now k).map (·.value)

omit [LinearOrder T] in
/-- `SET`, with or without an expiry. -/
def put (v : V) (deadline : Option T) : Keyspace T V := ⟨ks.stored.set k ⟨v, deadline⟩⟩

omit [LinearOrder T] in
def del : Keyspace T V := ⟨ks.stored.pop k⟩

/-- `EXPIRE`: a key that does not exist is left alone. -/
def expireAt (d : T) : Keyspace T V :=
  match ks.find now k with
  | some e => ⟨ks.stored.set k { e with deadline := some d }⟩
  | none => ks

/-- Rewrite the value under `k`, or remove the key. The deadline stays, and a new key has none. -/
def alter (f : Option V → Option V) : Keyspace T V :=
  match f (ks.get now k) with
  | some v => ⟨ks.stored.set k ⟨v, (ks.find now k).bind (·.deadline)⟩⟩
  | none => ⟨ks.stored.pop k⟩

/-! ## What is found after a command -/

variable {ks now k} {k' : String} {v : V} {d : T} {f : Option V → Option V}

theorem find_eq_some_iff {e : Entry T V} :
    ks.find now k = some e ↔ ks.stored.get? k = some e ∧ e.alive now = true := by
  rw [find, Option.filter_eq_some_iff]

theorem get_eq_some_iff : ks.get now k = some v ↔ ∃ e, ks.find now k = some e ∧ e.value = v := by
  rw [get, Option.map_eq_some_iff]

theorem find_later {now' : T} (h : now ≤ now') :
    ks.find now' k = (ks.find now k).filter (·.alive now') := by
  rw [find, find, Option.filter_filter]
  congr 1
  funext e
  rcases hd : e.deadline with _ | d
  · simp [Entry.alive, hd]
  · by_cases hlive : now' ≤ d
    · simp [Entry.alive, hd, hlive, h.trans hlive]
    · simp [Entry.alive, hd, hlive]

theorem find_put_of_ne (h : k' ≠ k) (deadline : Option T) :
    (ks.put k v deadline).find now k' = ks.find now k' := by
  rw [find, find, put, Dict.get?_set_of_ne _ h]

theorem find_del : (ks.del k).find now k = none := by
  rw [find, del, Dict.get?_pop, if_pos rfl]
  rfl

theorem find_del_of_ne (h : k' ≠ k) : (ks.del k).find now k' = ks.find now k' := by
  rw [find, find, del, Dict.get?_pop, if_neg h]

theorem find_foldl_del (keys : List String) :
    (keys.foldl del ks).find now k = if k ∈ keys then none else ks.find now k := by
  induction keys generalizing ks with
  | nil => rfl
  | cons key keys ih =>
    rw [List.foldl_cons, ih]
    by_cases hk : k = key
    · rw [hk, find_del]
      simp
    · rw [find_del_of_ne hk]
      simp [hk]

theorem find_expireAt (hd : now ≤ d) : (ks.expireAt now k d).find now k =
      (ks.find now k).map fun e ↦ { e with deadline := some d } := by
  rw [expireAt]
  rcases h : ks.find now k with _ | e
  · exact h
  · rw [Option.map_some, find_eq_some_iff, Dict.get?_set_self]
    exact ⟨rfl, decide_eq_true hd⟩

theorem find_expireAt_of_ne {now' : T} (h : k' ≠ k) :
    (ks.expireAt now k d).find now' k' = ks.find now' k' := by
  rw [expireAt]
  cases ks.find now k with
  | none => rfl
  | some e => exact find_put_of_ne h _

theorem find_alter : (ks.alter now k f).find now k =
      (f (ks.get now k)).map fun v ↦ ⟨v, (ks.find now k).bind (·.deadline)⟩ := by
  rw [alter]
  rcases h : f (ks.get now k) with _ | v
  · exact find_del
  · rw [Option.map_some, find_eq_some_iff, Dict.get?_set_self]
    refine ⟨rfl, ?_⟩
    rcases he : ks.find now k with _ | e
    · rfl
    · exact (find_eq_some_iff.mp he).2

theorem find_alter_of_ne {now' : T} (h : k' ≠ k) :
    (ks.alter now k f).find now' k' = ks.find now' k' := by
  rw [alter]
  cases f (ks.get now k) with
  | none => exact find_del_of_ne h
  | some v => exact find_put_of_ne h _

/-! ## Two keyspaces that agree on a key -/

/-- Both servers find the same under `k`, at every time. -/
def Agree (ks ks' : Keyspace T V) (k : String) : Prop := ∀ time, ks.find time k = ks'.find time k

theorem Agree.refl (ks : Keyspace T V) (k : String) : Agree ks ks k := fun _ ↦ rfl

theorem Agree.symm {ks ks' : Keyspace T V} (h : Agree ks ks' k) : Agree ks' ks k :=
  fun time ↦ (h time).symm

theorem Agree.trans {ks ks' ks'' : Keyspace T V} (h : Agree ks ks' k) (h' : Agree ks' ks'' k) :
    Agree ks ks'' k :=
  fun time ↦ (h time).trans (h' time)

theorem Agree.get {ks ks' : Keyspace T V} (h : Agree ks ks' k) (now : T) :
    ks.get now k = ks'.get now k := by
  rw [Keyspace.get, h now, Keyspace.get]

section Agree

variable [Nonempty T] {ks ks' : Keyspace T V}

theorem find_of_stored {e : Entry T V} (h : ks.stored.get? k = some e) :
    ∃ time, ks.find time k = some e := by
  rcases hd : e.deadline with _ | d
  · exact ⟨Classical.arbitrary T, find_eq_some_iff.mpr ⟨h, by rw [Entry.alive, hd]; rfl⟩⟩
  · exact ⟨d, find_eq_some_iff.mpr ⟨h, by rw [Entry.alive, hd]; exact decide_eq_true le_rfl⟩⟩

theorem agree_iff : Agree ks ks' k ↔ ks.stored.get? k = ks'.stored.get? k := by
  refine ⟨fun h ↦ ?_, fun h time ↦ by rw [find, find, h]⟩
  have hle {ks₁ ks₂ : Keyspace T V} (h : Agree ks₁ ks₂ k) {e : Entry T V}
      (he : ks₁.stored.get? k = some e) : ks₂.stored.get? k = some e := by
    obtain ⟨time, htime⟩ := find_of_stored he
    rw [h time] at htime
    exact (find_eq_some_iff.mp htime).1
  refine Option.ext fun e ↦ ⟨hle h, hle h.symm⟩

theorem Agree.put (v : V) (deadline : Option T) :
    Agree (ks.put k v deadline) (ks'.put k v deadline) k := by
  rw [agree_iff, Keyspace.put, Keyspace.put, Dict.get?_set_self, Dict.get?_set_self]

theorem Agree.expireAt (h : Agree ks ks' k) (now d : T) :
    Agree (ks.expireAt now k d) (ks'.expireAt now k d) k := by
  rw [Keyspace.expireAt, Keyspace.expireAt, h now]
  rcases ks'.find now k with _ | e
  · exact h
  · exact agree_iff.mpr (by rw [Dict.get?_set_self, Dict.get?_set_self])

theorem Agree.alter (h : Agree ks ks' k) (now : T) (f : Option V → Option V) :
    Agree (ks.alter now k f) (ks'.alter now k f) k := by
  rw [Keyspace.alter, Keyspace.alter, h.get now, h now]
  rcases f (ks'.get now k) with _ | v
  · exact fun time ↦ find_del.trans find_del.symm
  · exact agree_iff.mpr (by rw [Dict.get?_set_self, Dict.get?_set_self])

end Agree

end Keyspace

/-! ## Sorted sets -/

/-- Members with their scores. -/
abbrev SortedSet := Dict String ℤ

namespace SortedSet

/-- `ZREMRANGEBYSCORE`: what remains. -/
def removeRange (z : SortedSet) (lo hi : ℤ) : SortedSet :=
  z.filter fun _ score ↦ ¬ (lo ≤ score ∧ score ≤ hi)

/-- `ZRANGEBYSCORE`. -/
def range (z : SortedSet) (lo hi : ℤ) : List String :=
  (z.entries.filter fun e ↦ lo ≤ e.2 ∧ e.2 ≤ hi).map Prod.fst

theorem get?_removeRange_eq_some_iff {z : SortedSet} {lo hi : ℤ} {m : String} {score : ℤ} :
    Dict.get? (removeRange z lo hi) m = some score ↔
      z.get? m = some score ∧ ¬ (lo ≤ score ∧ score ≤ hi) := by
  rw [removeRange, Dict.get?_filter, Option.filter_eq_some_iff, decide_eq_true_iff]

end SortedSet

namespace Keyspace

variable {T : Type*} [LinearOrder T] (ks : Keyspace T SortedSet) (now : T) (k : String)

/-- The sorted set under `k`, which is empty when the key does not exist. -/
def zset : SortedSet := (ks.get now k).getD ∅

/-- The deadline of `k`, if the key exists and has one. -/
def deadline : Option T := (ks.find now k).bind (·.deadline)

/-- A command that changes the sorted set under `k`. -/
def zalter (g : SortedSet → SortedSet) : Keyspace T SortedSet :=
  ks.alter now k fun o ↦ if (g (o.getD ∅)).entries = [] then none else some (g (o.getD ∅))

variable {ks now k} {k' : String} {g : SortedSet → SortedSet} {d : T}

theorem zset_zalter : (ks.zalter now k g).zset now k = g (ks.zset now k) := by
  rw [zset, get, zalter, find_alter, zset]
  split_ifs with hempty
  · rcases hz : g ((ks.get now k).getD ∅) with ⟨es, hes⟩
    rw [hz] at hempty
    obtain rfl : es = [] := hempty
    rfl
  · rfl

theorem deadline_zalter : (ks.zalter now k g).deadline now k =
      if (g (ks.zset now k)).entries = [] then none else ks.deadline now k := by
  rw [deadline, zalter, find_alter, zset]
  split_ifs with hempty
  · rfl
  · rfl

variable {now' : T} {ks' : Keyspace T SortedSet}

theorem find_zalter_of_ne (h : k' ≠ k) :
    (ks.zalter now k g).find now' k' = ks.find now' k' :=
  find_alter_of_ne h

theorem zset_expireAt (hd : now ≤ d) : (ks.expireAt now k d).zset now k = ks.zset now k := by
  rw [zset, get, find_expireAt hd, zset, get, Option.map_map]
  rfl

theorem deadline_expireAt (hd : now ≤ d) :
    (ks.expireAt now k d).deadline now k = (ks.find now k).map fun _ ↦ d := by
  rw [deadline, find_expireAt hd]
  cases ks.find now k <;> rfl

theorem zset_congr (h : ks'.find now k' = ks.find now k') :
    ks'.zset now k' = ks.zset now k' := by
  rw [zset, get, h, zset, get]

theorem deadline_congr (h : ks'.find now k' = ks.find now k') :
    ks'.deadline now k' = ks.deadline now k' := by
  rw [deadline, h, deadline]

variable (ks k) in
theorem zset_later (h : now ≤ now') : ks.zset now' k = ks.zset now k ∨
      ks.zset now' k = ∅ ∧ ∃ d, ks.deadline now k = some d ∧ d < now' := by
  rw [zset, get, find_later h, zset, get, deadline]
  rcases ks.find now k with _ | e
  · exact .inl rfl
  · rw [Option.filter_some]
    split_ifs with halive
    · exact .inl rfl
    · refine .inr ⟨rfl, ?_⟩
      rcases hd : e.deadline with _ | d
      · rw [Entry.alive, hd] at halive
        exact absurd rfl halive
      · refine ⟨d, hd, not_le.mp fun hle ↦ halive ?_⟩
        rw [Entry.alive, hd]
        exact decide_eq_true hle

theorem Agree.zset (h : Agree ks ks' k) (now : T) :
    ks.zset now k = ks'.zset now k :=
  zset_congr (h now)

theorem Agree.zalter [Nonempty T] (h : Agree ks ks' k) (now : T)
    (g : SortedSet → SortedSet) : Agree (ks.zalter now k g) (ks'.zalter now k g) k :=
  h.alter now _

theorem deadline_later (h : now ≤ now') (hd : ks.deadline now' k = some d) :
    ks.deadline now k = some d := by
  rw [deadline, find_later h] at hd
  obtain ⟨e, he, hed⟩ := Option.bind_eq_some_iff.mp hd
  rw [deadline, (Option.filter_eq_some_iff.mp he).1]
  exact hed

end Keyspace

end Foundation
