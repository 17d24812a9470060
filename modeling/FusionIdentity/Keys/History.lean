import FusionIdentity.Keys.KeyRing

/-!
# A key ring over time

The ring under rotations, prunings and reads of the JWKS document, with the file beside it.

`KeyRing.Consistent` says that the index holds the current key, the retired keys and the extra keys,
and nothing else; what `verify_key_for` answers and what `jwks` publishes are read off it.
`KeyHost.Synced` says that after a successful write the file holds the ring as it is.

`prune` goes by the age of a key *since creation*. The grace window holds as long as no pruning
comes upon a key that is older than the window but was retired within it (`KeyHost.GraceSafe`).
-/

namespace FusionIdentity.Keys

open Foundation

/-! ## Runs -/

/-- The ring in its process. Besides the ring and the file: how the last attempt to write the file
ended, and when each key that stopped being the current one did so. -/
structure KeyHost where
  ring : KeyRing
  file : Option String
  lastPersist : Option DiskOutcome := none
  retirements : List (RsaKey × Time) := []

inductive RingOp
  /-- `POST /.well-known/jwks/rotate`. -/
  | rotate (d : Draw) (disk : DiskOutcome)
  | prune (now : Time) (disk : DiskOutcome)
  /-- `GET /.well-known/jwks.json`, which prunes before it reads. -/
  | jwksRead (now : Time) (disk : DiskOutcome)
  deriving DecidableEq

def RingOp.now : RingOp → Time
  | rotate d _ => d.now
  | prune now _ | jwksRead now _ => now

namespace KeyHost

variable (F : FloatText)

def persist (h : KeyHost) (disk : DiskOutcome) : KeyHost :=
  { h with
    file := h.ring.persist F h.file disk
    lastPersist := if h.ring.persistable.isSome then some disk else h.lastPersist }

def rotate (h : KeyHost) (d : Draw) (disk : DiskOutcome) : KeyHost :=
  match h.ring.rotate d with
  | (_, none) => h
  | (ring, some _) =>
    persist F
      { h with
        ring := ring
        retirements := h.retirements ++ h.ring.rsaCurrent.toList.map (·, d.now) } disk

/-- `prune`: the file is written only when a key was dropped. -/
def prune (h : KeyHost) (now : Time) (disk : DiskOutcome) : KeyHost :=
  match h.ring.prune now with
  | (ring, 0) => { h with ring := ring }
  | (ring, _ + 1) => persist F { h with ring := ring } disk

def step (h : KeyHost) : RingOp → KeyHost
  | .rotate d disk => h.rotate F d disk
  | .prune now disk => h.prune F now disk
  | .jwksRead now disk => h.prune F now disk

def run (h : KeyHost) (ops : List RingOp) : KeyHost := ops.foldl (step F) h

theorem run_append (h : KeyHost) (ops ops' : List RingOp) :
    h.run F (ops ++ ops') = (h.run F ops).run F ops' := List.foldl_append

def Along (P : KeyHost → RingOp → Prop) : KeyHost → List RingOp → Prop
  | _, [] => True
  | h, op :: ops => P h op ∧ Along P (h.step F op) ops

theorem along_append {P : KeyHost → RingOp → Prop} {h : KeyHost} {ops ops' : List RingOp} :
    Along F P h (ops ++ ops') ↔ Along F P h ops ∧ Along F P (h.run F ops) ops' := by
  induction ops generalizing h with
  | nil => simp [Along, run]
  | cons op ops ih => simp [Along, run, ih, and_assoc]

theorem run_invariant {P : KeyHost → RingOp → Prop} {I : KeyHost → Prop}
    (hstep : ∀ h op, P h op → I h → I (h.step F op)) {h : KeyHost} (ops : List RingOp)
    (hops : Along F P h ops) (h₀ : I h) : I (h.run F ops) := by
  induction ops generalizing h with
  | nil => exact h₀
  | cons op ops ih => exact ih hops.2 (hstep h op hops.1 h₀)

end KeyHost

/-! ## The index -/

/-- The current key, the retired keys and the extra keys have ids of their own, and the index holds
them and nothing else. -/
structure KeyRing.Consistent (ring : KeyRing) (extras : Dict String RsaKey) : Prop where
  rs256 : ring.algorithm = "RS256"
  current : ring.rsaCurrent.isSome
  kids : (ring.ringKeys.map RsaKey.kid).Nodup
  apart : ∀ rk ∈ ring.ringKeys, extras.get? rk.kid = none
  index : ∀ kid rk, ring.kidIndex.get? kid = some rk ↔
    rk ∈ ring.ringKeys ∧ rk.kid = kid ∨ extras.get? kid = some rk

/-- An id that no key of the ring has. -/
def KeyRing.Fresh (ring : KeyRing) (extras : Dict String RsaKey) (kid : String) : Prop :=
  kid ∉ ring.ringKeys.map RsaKey.kid ∧ extras.get? kid = none

namespace KeyRing

variable {ring : KeyRing} {extras : Dict String RsaKey}

theorem rotate_eq {current : RsaKey} (hrs : ring.algorithm = "RS256")
    (hcur : ring.rsaCurrent = some current) (d : Draw) : ring.rotate d = ({ ring with
          rsaRetired := ring.rsaRetired ++ [current]
          rsaCurrent := some d.key
          kidIndex := ring.kidIndex.set d.key.kid d.key }, some d.key.kid) := by
  rw [rotate, hcur]
  simp [hrs]

/-- A rotation adds the new key to the ring and keeps the others, the current one last. -/
theorem ringKeys_rotate (hrs : ring.algorithm = "RS256") (hcur : ring.rsaCurrent.isSome)
    (d : Draw) : (ring.rotate d).1.ringKeys.Perm (d.key :: ring.ringKeys) := by
  obtain ⟨current, hcur⟩ := Option.isSome_iff_exists.mp hcur
  rw [rotate_eq hrs hcur]
  simp only [ringKeys, hcur, Option.toList_some, List.singleton_append]
  exact (List.perm_append_singleton current ring.rsaRetired).cons d.key

theorem mem_ringKeys_rotate {d : Draw} {rk : RsaKey} (hrk : rk ∈ (ring.rotate d).1.ringKeys) :
    rk = d.key ∨ rk ∈ ring.ringKeys := by
  by_cases hrs : ring.algorithm = "RS256" ∧ ring.rsaCurrent.isSome
  · exact List.mem_cons.mp ((ringKeys_rotate hrs.1 hrs.2 d).mem_iff.mp hrk)
  · rw [rotate] at hrk
    split at hrk
    · exact .inr hrk
    · simp_all

theorem ringKeys_prune_sublist (ring : KeyRing) (now : Time) :
    (ring.prune now).1.ringKeys.Sublist ring.ringKeys :=
  List.filter_sublist.append_left _

/-- A key in force leaves the ring only when it is retired and past its age. -/
theorem mem_ringKeys_prune (now : Time) {rk : RsaKey} (hrk : rk ∈ ring.ringKeys) :
    rk ∈ (ring.prune now).1.ringKeys ∨ rk ∈ ring.rsaRetired ∧ expired now rk = true := by
  rw [ringKeys, List.mem_append] at hrk
  rcases hrk with hcur | hret
  · exact .inl (List.mem_append_left _ hcur)
  · by_cases hold : expired now rk = true
    · exact .inr ⟨hret, hold⟩
    · refine .inl (List.mem_append_right _ (List.mem_filter.mpr ⟨hret, ?_⟩))
      simpa using hold

namespace Consistent

theorem rotate (hc : ring.Consistent extras) {d : Draw} (hfresh : ring.Fresh extras d.key.kid) :
    (ring.rotate d).1.Consistent extras := by
  have hperm := ringKeys_rotate hc.rs256 hc.current d
  have hmem {rk : RsaKey} : rk ∈ (ring.rotate d).1.ringKeys ↔ rk = d.key ∨ rk ∈ ring.ringKeys := by
    rw [hperm.mem_iff, List.mem_cons]
  obtain ⟨current, hcur⟩ := Option.isSome_iff_exists.mp hc.current
  have hindex : (ring.rotate d).1.kidIndex = ring.kidIndex.set d.key.kid d.key := by
    rw [rotate_eq hc.rs256 hcur]
  refine ⟨?_, ?_, ?_, ?_, ?_⟩
  · rw [rotate_eq hc.rs256 hcur]
    exact hc.rs256
  · rw [rotate_eq hc.rs256 hcur]
    rfl
  · rw [(hperm.map RsaKey.kid).nodup_iff, List.map_cons, List.nodup_cons]
    exact ⟨hfresh.1, hc.kids⟩
  · intro rk hrk
    rcases hmem.mp hrk with rfl | hold
    · exact hfresh.2
    · exact hc.apart rk hold
  · intro kid rk
    rw [hindex, Dict.get?_set, hmem]
    by_cases hkid : kid = d.key.kid
    · subst hkid
      rw [if_pos rfl, Option.some.injEq, hfresh.2]
      constructor
      · rintro rfl
        exact .inl ⟨.inl rfl, rfl⟩
      · rintro (⟨rfl | hold, hk⟩ | hextra)
        · rfl
        · exact absurd (List.mem_map.mpr ⟨rk, hold, hk⟩) hfresh.1
        · exact absurd hextra (by simp)
    · rw [if_neg hkid, hc.index]
      have hne : rk.kid = kid → rk ≠ d.key := by
        rintro rfl rfl
        exact hkid rfl
      tauto

theorem prune (hc : ring.Consistent extras) (now : Time) :
    (ring.prune now).1.Consistent extras := by
  have hsub := ringKeys_prune_sublist ring now
  refine ⟨hc.rs256, hc.current, hc.kids.sublist (hsub.map _),
    fun rk hrk ↦ hc.apart rk (hsub.subset hrk), ?_⟩
  intro kid rk
  have hindex : (ring.prune now).1.kidIndex.get? kid =
      if kid ∈ (ring.rsaRetired.filter (expired now)).map RsaKey.kid then none
      else ring.kidIndex.get? kid := Dict.get?_foldl_pop RsaKey.kid _ _ _
  -- a key that is kept has another id than every key that is dropped
  have hkept {rk : RsaKey} (hrk : rk ∈ (ring.prune now).1.ringKeys) :
      rk.kid ∉ (ring.rsaRetired.filter (expired now)).map RsaKey.kid := by
    intro hdropped
    obtain ⟨rk', hrk', hkid⟩ := List.mem_map.mp hdropped
    obtain ⟨hret, hold⟩ := List.mem_filter.mp hrk'
    obtain rfl : rk' = rk := List.inj_on_of_nodup_map hc.kids (List.mem_append_right _ hret)
      (hsub.subset hrk) hkid
    rcases List.mem_append.mp hrk with hcur | hfilter
    · have hdisjoint := (List.nodup_append.mp (hc.kids.of_map _)).2.2
      exact hdisjoint rk' hcur rk' hret rfl
    · have hyoung := (List.mem_filter.mp hfilter).2
      rw [hold] at hyoung
      exact absurd hyoung (by decide)
  rw [hindex]
  split
  case isTrue hdropped =>
    obtain ⟨rk', hrk', hkid⟩ := List.mem_map.mp hdropped
    have hapart := hc.apart rk' (List.mem_append_right _ (List.mem_filter.mp hrk').1)
    rw [hkid] at hapart
    rw [hapart]
    constructor
    · intro h
      exact absurd h (by simp)
    · rintro (⟨hrk, rfl⟩ | h)
      · exact absurd hdropped (hkept hrk)
      · exact absurd h (by simp)
  case isFalse hnot =>
    rw [hc.index]
    refine or_congr_left ⟨fun h ↦ ⟨?_, h.2⟩, fun h ↦ ⟨hsub.subset h.1, h.2⟩⟩
    rcases mem_ringKeys_prune now h.1 with hin | hout
    · exact hin
    · exact absurd (List.mem_map.mpr ⟨rk, List.mem_filter.mpr hout, h.2⟩) hnot

theorem verifyKeyFor_eq_ok_iff (hc : ring.Consistent extras) {kid pem : String} :
    ring.verifyKeyFor (some kid) = .ok pem ↔
      kid ≠ "" ∧ ((∃ rk ∈ ring.ringKeys, rk.kid = kid ∧ rk.publicPem = pem) ∨
        ∃ rk, extras.get? kid = some rk ∧ rk.publicPem = pem) := by
  have hget : ring.verifyKeyFor (some kid) = .ok pem ↔
      kid ≠ "" ∧ ∃ rk, ring.kidIndex.get? kid = some rk ∧ rk.publicPem = pem := by
    rw [verifyKeyFor, hc.rs256, if_neg (by decide)]
    by_cases hkid : kid = ""
    · simp [Option.filter_some, hkid]
    · rcases hrk : ring.kidIndex.get? kid with _ | rk <;> simp [Option.filter_some, hkid, hrk]
  simp only [hget, hc.index]
  grind

end Consistent

end KeyRing

/-! ## Starting -/

def extraKeys (C : Crypto) (now : Time) (publicKeysPem : Option String) : Dict String RsaKey :=
  addExtraKeys C now (extraPems C (publicKeysPem.getD "")) ∅

theorem get?_addExtraKeys (C : Crypto) (now : Time) (pems : List String)
    (index : Dict String RsaKey) (kid : String) : (addExtraKeys C now pems index).get? kid =
      ((pems.reverse.find? fun pem ↦ extraKid C pem = kid).map (extraKey C now)).or
        (index.get? kid) :=
  Dict.get?_foldl_set (extraKid C) (extraKey C now) pems index kid

variable {keys : List RsaKey} {α β : Type} {F : FloatText} {C : Crypto} {rk : RsaKey}

/-- Under distinct ids the index of a list of keys is the list. -/
theorem get?_indexOf (hkids : (keys.map RsaKey.kid).Nodup) (kid : String)
    (rk : RsaKey) : (indexOf keys).get? kid = some rk ↔ rk ∈ keys ∧ rk.kid = kid := by
  have hget : (indexOf keys).get? kid = keys.reverse.find? fun rk ↦ rk.kid = kid := by
    rw [indexOf, Dict.get?_foldl_set RsaKey.kid (fun rk ↦ rk)]
    simp
  rw [hget]
  constructor
  · intro h
    exact ⟨List.mem_reverse.mp (List.mem_of_find?_eq_some h), by simpa using List.find?_some h⟩
  · rintro ⟨hmem, rfl⟩
    obtain ⟨rk', hrk'⟩ := Option.isSome_iff_exists.mp
      (List.find?_isSome (p := fun k : RsaKey ↦ k.kid = rk.kid).mpr
        ⟨rk, List.mem_reverse.mpr hmem, by simp⟩)
    have hkid : rk'.kid = rk.kid := by simpa using List.find?_some hrk'
    have heq := List.inj_on_of_nodup_map hkids
      (List.mem_reverse.mp (List.mem_of_find?_eq_some hrk')) hmem hkid
    rw [hrk', heq]

private theorem exists_ok_of_bind {ε : Type} {x : Except ε α} {f : α → Except ε β} {b : β}
    (h : x >>= f = .ok b) : ∃ a, x = .ok a ∧ f a = .ok b := by
  cases x with
  | error e => cases h
  | ok a => exact ⟨a, rfl, h⟩

theorem exists_bareRing_of_ringOfPayload {persistPath : String} {payload : Json} {ring : KeyRing}
    (h : ringOfPayload F persistPath payload = .ok (some ring)) :
    ∃ current retired, ring = bareRing persistPath current retired := by
  rw [ringOfPayload] at h
  obtain ⟨algorithm, -, h⟩ := exists_ok_of_bind h
  split at h
  · cases h
  obtain ⟨current?, -, h⟩ := exists_ok_of_bind h
  obtain ⟨current, -, h⟩ := exists_ok_of_bind h
  obtain ⟨retired?, -, h⟩ := exists_ok_of_bind h
  obtain ⟨items, -, h⟩ := exists_ok_of_bind h
  obtain ⟨retired, -, h⟩ := exists_ok_of_bind h
  cases current with
  | none => cases h
  | some current =>
    cases h
    exact ⟨current, retired.reduceOption, rfl⟩

theorem exists_bareRing_of_rs256 {config : RingConfig} {s : Startup} {file : Option String}
    {ring : KeyRing} (h : KeyRing.rs256 F C config s file = .ok ring) :
    ∃ current retired, ring =
      (bareRing config.persistPath current retired).loadExtraPublicKeys C config.publicKeysPem
        s.now := by
  rw [KeyRing.rs256] at h
  split at h
  case h_1 => cases h
  case h_2 recovered hload =>
    rw [loadPersisted] at hload
    split at hload
    · cases hload
    · split at hload
      · cases hload
      · obtain ⟨current, retired, rfl⟩ := exists_bareRing_of_ringOfPayload hload
        cases h
        exact ⟨current, retired, rfl⟩
  case h_3 =>
    rcases hkey : initialKey C config.privatePem s with e | rk
    · rw [hkey] at h
      cases h
    · rw [hkey] at h
      cases h
      exact ⟨rk, [], rfl⟩

namespace KeyRing

variable {F : FloatText} {C : Crypto} {config : RingConfig} {s : Startup} {file : Option String}
  {ring : KeyRing}

theorem Consistent.start {current : RsaKey} {retired : List RsaKey} {persistPath : String}
    {publicKeysPem : Option String} {now : Time}
    (hkids : ((current :: retired).map RsaKey.kid).Nodup)
    (hapart : ∀ rk ∈ current :: retired, (extraKeys C now publicKeysPem).get? rk.kid = none) :
    ((bareRing persistPath current retired).loadExtraPublicKeys C publicKeysPem now).Consistent
      (extraKeys C now publicKeysPem) := by
  refine ⟨rfl, rfl, hkids, hapart, fun kid rk ↦ ?_⟩
  have hextra : (extraKeys C now publicKeysPem).get? kid =
      ((extraPems C (publicKeysPem.getD "")).reverse.find? fun pem ↦ extraKid C pem = kid).map
        (extraKey C now) := by
    rw [extraKeys, get?_addExtraKeys, Dict.get?_empty, Option.or_none]
  have hindex : ((bareRing persistPath current retired).loadExtraPublicKeys C publicKeysPem
      now).kidIndex.get? kid =
        ((extraKeys C now publicKeysPem).get? kid).or
          ((indexOf (current :: retired)).get? kid) := by
    rw [hextra]
    exact get?_addExtraKeys C now _ _ kid
  have hbare := get?_indexOf hkids kid rk
  rw [hindex, Option.or_eq_some_iff, hbare]
  -- an id among the extra keys is not one of the ring's
  constructor
  · rintro (h | ⟨-, h⟩)
    · exact .inr h
    · exact .inl h
  · rintro (⟨hmem, rfl⟩ | h)
    · exact .inr ⟨hapart rk hmem, hmem, rfl⟩
    · exact .inl h

theorem Consistent.of_rs256 (hboot : KeyRing.rs256 F C config s file = .ok ring)
    (hkids : (ring.ringKeys.map RsaKey.kid).Nodup)
    (hapart : ∀ rk ∈ ring.ringKeys, (extraKeys C s.now config.publicKeysPem).get? rk.kid = none) :
    ring.Consistent (extraKeys C s.now config.publicKeysPem) := by
  obtain ⟨current, retired, rfl⟩ := exists_bareRing_of_rs256 hboot
  exact Consistent.start hkids hapart

/-- The answers of `verify_key_for` depend on the public keys in the index only. -/
theorem verifyKeyFor_congr {ring ring' : KeyRing} (hrs : ring.algorithm = "RS256")
    (hrs' : ring'.algorithm = "RS256")
    (hindex : ∀ kid, (ring.kidIndex.get? kid).map RsaKey.publicPem =
      (ring'.kidIndex.get? kid).map RsaKey.publicPem) (kid : Option String) :
    ring.verifyKeyFor kid = ring'.verifyKeyFor kid := by
  rw [verifyKeyFor, verifyKeyFor, hrs, hrs', if_neg (by decide), if_neg (by decide)]
  rcases kid.filter (· ≠ "") with _ | k
  · rfl
  · have hk := hindex k
    rcases h : ring.kidIndex.get? k with _ | rk <;>
      rcases h' : ring'.kidIndex.get? k with _ | rk' <;> simp_all

theorem Consistent.map_get?_congr {ring ring' : KeyRing} {extras extras' : Dict String RsaKey}
    (hc : ring.Consistent extras) (hc' : ring'.Consistent extras')
    (hkeys : ring.ringKeys = ring'.ringKeys)
    (hextras : ∀ kid, (extras.get? kid).map RsaKey.publicPem =
      (extras'.get? kid).map RsaKey.publicPem) (kid : String) :
    (ring.kidIndex.get? kid).map RsaKey.publicPem =
      (ring'.kidIndex.get? kid).map RsaKey.publicPem := by
  ext pem
  have hmap : (∃ rk, extras.get? kid = some rk ∧ rk.publicPem = pem) ↔
      ∃ rk, extras'.get? kid = some rk ∧ rk.publicPem = pem := by
    rw [← Option.map_eq_some_iff, ← Option.map_eq_some_iff, hextras]
  simp only [Option.map_eq_some_iff, hc.index, hc'.index, or_and_right, exists_or, hmap, hkeys]

end KeyRing

theorem map_get?_extraKeys (C : Crypto) (now : Time) (publicKeysPem : Option String)
    (kid : String) : ((extraKeys C now publicKeysPem).get? kid).map RsaKey.publicPem =
      (extraPems C (publicKeysPem.getD "")).reverse.find? fun pem ↦ extraKid C pem = kid := by
  rw [extraKeys, get?_addExtraKeys, Dict.get?_empty, Option.or_none, Option.map_map]
  exact Option.map_id'

/-! ## Publication -/

/-- A key that can be published and found again: its id and its PEM are not empty, and the PEM holds
an RSA key. -/
structure RsaKey.Usable (C : Crypto) (rk : RsaKey) : Prop where
  kid : rk.kid ≠ ""
  publicPem : rk.publicPem ≠ ""
  loadable : C.loadable rk.publicPem = true
  rsa : (C.rsaNumbers rk.publicPem).isSome

def Publishes (C : Crypto) (rk : RsaKey) (jwk : Jwk) : Prop :=
  ∃ n e, C.rsaNumbers rk.publicPem = some (n, e) ∧
    jwk = { kid := rk.kid, n := b64uInt n, e := b64uInt e }

theorem RsaKey.Usable.exists_jwk (h : rk.Usable C) :
    ∃ jwk, rsaPublicJwk C rk.kid rk.publicPem = .ok jwk ∧ Publishes C rk jwk := by
  obtain ⟨⟨n, e⟩, hne⟩ := Option.isSome_iff_exists.mp h.rsa
  refine ⟨{ kid := rk.kid, n := b64uInt n, e := b64uInt e }, ?_, n, e, hne, rfl⟩
  simp [rsaPublicJwk, h.loadable, hne]

private theorem exists_of_forall₂ {R : α → β → Prop} {l : List α} {l' : List β}
    (h : List.Forall₂ R l l') {a : α} (ha : a ∈ l) : ∃ b ∈ l', R a b := by
  induction h with
  | nil => exact absurd ha (by simp)
  | @cons x y l l' hxy _ ih =>
    rcases List.mem_cons.mp ha with rfl | ha
    · exact ⟨y, List.mem_cons_self, hxy⟩
    · obtain ⟨b, hb, hab⟩ := ih ha
      exact ⟨b, List.mem_cons_of_mem _ hb, hab⟩

theorem KeyRing.exists_jwks {ring : KeyRing} (h : ∀ rk ∈ ring.ringKeys, rk.Usable C) :
    ∃ doc, ring.jwks C = .ok doc ∧ List.Forall₂ (Publishes C) ring.ringKeys doc := by
  rw [jwks]
  generalize ring.ringKeys = keys at h
  induction keys with
  | nil => exact ⟨[], rfl, .nil⟩
  | cons rk keys ih =>
    obtain ⟨doc, hdoc, hall⟩ := ih fun rk' hrk' ↦ h rk' (List.mem_cons_of_mem _ hrk')
    obtain ⟨jwk, hjwk, hpub⟩ := (h rk List.mem_cons_self).exists_jwk
    refine ⟨jwk :: doc, ?_, .cons hpub hall⟩
    rw [List.mapM_cons, hjwk, hdoc]
    rfl

/-! ## The file -/

private theorem falsy_str {s : String} (h : s ≠ "") : falsy (some (.str s)) = false := by
  simp [falsy, h]

private theorem textOrEmpty_str (s : String) : textOrEmpty (some (.str s)) = .ok s := by
  by_cases h : s = ""
  · subst h
    rfl
  · simp [textOrEmpty, falsy_str h, textField]

theorem rsaKeyFromDict_toDict (hF : F.Keeps rk.createdAt)
    (hkid : rk.kid ≠ "") (hpem : rk.publicPem ≠ "") :
    rsaKeyFromDict F (rk.toDict F) = .ok (some rk) := by
  have h₁ : getField (rk.toDict F) "kid" = .ok (some (.str rk.kid)) := rfl
  have h₂ : getField (rk.toDict F) "public_pem" = .ok (some (.str rk.publicPem)) := rfl
  have h₃ : getField (rk.toDict F) "private_pem" = .ok (some (.str rk.privatePem)) := rfl
  have h₄ : getField (rk.toDict F) "created_at" = .ok (some (.num (F.repr rk.createdAt))) := rfl
  simp only [rsaKeyFromDict, h₁, h₂, h₃, h₄, falsy_str hkid, falsy_str hpem, textOrEmpty_str,
    textField, floatOrZero, show F.read (F.repr rk.createdAt) = _ from hF, bind, Except.bind]
  rfl

theorem mapM_rsaKeyFromDict_toDict (hF : ∀ rk ∈ keys, F.Keeps rk.createdAt)
    (h : ∀ rk ∈ keys, rk.kid ≠ "" ∧ rk.publicPem ≠ "") :
    (keys.map (RsaKey.toDict F)).mapM (rsaKeyFromDict F) = .ok (keys.map some) := by
  induction keys with
  | nil => rfl
  | cons rk keys ih =>
    obtain ⟨hkid, hpem⟩ := h rk List.mem_cons_self
    have hrest := ih (fun rk' hrk' ↦ hF rk' (List.mem_cons_of_mem _ hrk'))
      fun rk' hrk' ↦ h rk' (List.mem_cons_of_mem _ hrk')
    rw [List.map_cons, List.mapM_cons, rsaKeyFromDict_toDict (hF rk List.mem_cons_self) hkid hpem,
      hrest]
    rfl

theorem ringOfPayload_payload {ring : KeyRing} (hF : ∀ rk ∈ ring.ringKeys, F.Keeps rk.createdAt)
    {current : RsaKey} (hrs : ring.algorithm = "RS256") (hcur : ring.rsaCurrent = some current)
    (h : ∀ rk ∈ ring.ringKeys, rk.kid ≠ "" ∧ rk.publicPem ≠ "") (persistPath : String) :
    ringOfPayload F persistPath (ring.payload F current) =
      .ok (some (bareRing persistPath current ring.rsaRetired)) := by
  have hcurrent : current ∈ ring.ringKeys := by simp [KeyRing.ringKeys, hcur]
  have h₁ : getField (ring.payload F current) "algorithm" = .ok (some (.str ring.algorithm)) := rfl
  have h₂ : getField (ring.payload F current) "current" = .ok (some (current.toDict F)) := rfl
  have h₃ : getField (ring.payload F current) "retired" =
      .ok (some (.arr (ring.rsaRetired.map (RsaKey.toDict F)))) := rfl
  have hnot : falsy (some (current.toDict F)) = false := rfl
  have hdict := rsaKeyFromDict_toDict (hF current hcurrent) (h current hcurrent).1
    (h current hcurrent).2
  have hitems := mapM_rsaKeyFromDict_toDict (fun rk hrk ↦ hF rk (List.mem_append_right _ hrk))
    fun rk hrk ↦ h rk (List.mem_append_right _ hrk)
  have hall : (ring.rsaRetired.map some).reduceOption = ring.rsaRetired :=
    List.filterMap_map.trans List.filterMap_some
  simp only [ringOfPayload, h₁, h₂, h₃, hrs, hnot, retiredItems, hitems, bind, Except.bind]
  simp [hdict, hall, pure, Except.pure]

namespace KeyHost

variable {F : FloatText} {h : KeyHost}

theorem ring_rotate (h : KeyHost) (d : Draw) (disk : DiskOutcome) :
    (h.rotate F d disk).ring = (h.ring.rotate d).1 := by
  rw [rotate, KeyRing.rotate]
  rcases h.ring.rsaCurrent with _ | current
  · rfl
  · by_cases hrs : h.ring.algorithm = "RS256" <;> simp [hrs, persist]

theorem ring_prune (h : KeyHost) (now : Time) (disk : DiskOutcome) :
    (h.prune F now disk).ring = (h.ring.prune now).1 := by
  rw [prune]
  split
  · rename_i heq; rw [heq]
  · rename_i heq; rw [heq]; rfl

/-- After a successful write the file holds the ring as it is. -/
def Synced (F : FloatText) (h : KeyHost) : Prop :=
  h.lastPersist = some .written → ∃ current, h.ring.persistable = some current ∧
    h.file = some ((h.ring.payload F current).dumps true)

theorem synced_persist (hwas : h.lastPersist = some .written → h.ring.persistable.isSome)
    (disk : DiskOutcome) : (h.persist F disk).Synced F := by
  intro hlast
  rcases hp : h.ring.persistable with _ | current
  · have hlast' : h.lastPersist = some .written := by simpa [persist, hp] using hlast
    have hsome := hwas hlast'
    rw [hp] at hsome
    exact absurd hsome (by decide)
  · have hdisk : disk = .written := by simpa [persist, hp] using hlast
    exact ⟨current, hp, by simp [persist, KeyRing.persist, hp, hdisk]⟩

private theorem persistable_of_isSome {ring : KeyRing} (h : ring.persistable.isSome) :
    ring.persistPath ≠ "" ∧ ring.algorithm = "RS256" ∧ ring.persistable = ring.rsaCurrent := by
  rw [KeyRing.persistable] at h ⊢
  split_ifs at h ⊢ with hoff
  · exact absurd h (by decide)
  · rw [not_or, not_not] at hoff
    exact ⟨hoff.1, hoff.2, rfl⟩

theorem Synced.rotate (hs : h.Synced F) (hcur : h.ring.rsaCurrent.isSome) (d : Draw)
    (disk : DiskOutcome) : (h.rotate F d disk).Synced F := by
  obtain ⟨current, hcur⟩ := Option.isSome_iff_exists.mp hcur
  by_cases hrs : h.ring.algorithm = "RS256"
  · rw [KeyHost.rotate, KeyRing.rotate_eq hrs hcur]
    refine synced_persist (fun hlast ↦ ?_) disk
    obtain ⟨_, hper, -⟩ := hs hlast
    obtain ⟨hpath, -, -⟩ := persistable_of_isSome (Option.isSome_of_eq_some hper)
    simp [KeyRing.persistable, hpath, hrs]
  · have hsame : h.rotate F d disk = h := by
      simp [KeyHost.rotate, KeyRing.rotate, hcur, hrs]
    rwa [hsame]

theorem Synced.prune (hs : h.Synced F) (now : Time) (disk : DiskOutcome) :
    (h.prune F now disk).Synced F := by
  rw [KeyHost.prune]
  split
  · rename_i ring heq
    -- nothing was dropped, so there is nothing new to write
    have hnone : h.ring.rsaRetired.filter (KeyRing.expired now) = [] := by
      have hlen : (h.ring.rsaRetired.filter (KeyRing.expired now)).length = 0 :=
        congrArg Prod.snd heq
      exact List.length_eq_zero_iff.mp hlen
    have hsame : ring.rsaRetired = h.ring.rsaRetired := by
      have hring : ring = (h.ring.prune now).1 := by rw [heq]
      rw [hring]
      refine List.filter_eq_self.mpr fun rk hrk ↦ ?_
      have hyoung := List.filter_eq_nil_iff.mp hnone rk hrk
      simpa using hyoung
    have hring : (h.ring.prune now).1 = ring := by rw [heq]
    intro hlast
    obtain ⟨current, hper, hfile⟩ := hs hlast
    refine ⟨current, ?_, ?_⟩
    · rw [← hring]
      exact hper
    · have hpayload : ring.payload F current = h.ring.payload F current := by
        rw [KeyRing.payload, KeyRing.payload, hsame, ← hring]
        rfl
      rw [hpayload]
      exact hfile
  · rename_i ring n heq
    have hring : (h.ring.prune now).1 = ring := by rw [heq]
    refine synced_persist (fun hlast ↦ ?_) disk
    obtain ⟨current, hper, -⟩ := hs hlast
    rw [← hring]
    exact Option.isSome_of_eq_some hper

end KeyHost

/-! ## Every run -/

/-- What is asked of a ring at the start: the ids of its keys are distinct, from each other and from
those of the extra keys, distinct extra keys have distinct ids, and its keys are usable. -/
structure FreshStart (C : Crypto) (config : RingConfig) (s : Startup) (ring : KeyRing) : Prop where
  kids : (ring.ringKeys.map RsaKey.kid).Nodup
  apart : ∀ rk ∈ ring.ringKeys, (extraKeys C s.now config.publicKeysPem).get? rk.kid = none
  extras : Set.InjOn (extraKid C) {pem | pem ∈ extraPems C (config.publicKeysPem.getD "")}
  usable : ∀ rk ∈ ring.ringKeys, rk.Usable C

/-- A rotation draws a fresh id and a usable pair. -/
def RingOp.Proper (C : Crypto) (extras : Dict String RsaKey) (h : KeyHost) : RingOp → Prop
  | .rotate d _ => h.ring.Fresh extras d.key.kid ∧ d.key.Usable C
  | .prune _ _ | .jwksRead _ _ => True

namespace KeyHost

variable {F : FloatText} {C : Crypto} {extras : Dict String RsaKey}

def start (ring : KeyRing) (file : Option String) : KeyHost where
  ring := ring
  file := file

structure Sound (F : FloatText) (C : Crypto) (extras : Dict String RsaKey) (path : String)
    (h : KeyHost) : Prop where
  consistent : h.ring.Consistent extras
  usable : ∀ rk ∈ h.ring.ringKeys, rk.Usable C
  path : h.ring.persistPath = path
  synced : h.Synced F

theorem Sound.prune {path : String} {h : KeyHost} (hs : Sound F C extras path h) (now : Time)
    (disk : DiskOutcome) : Sound F C extras path (h.prune F now disk) := by
  refine ⟨?_, ?_, ?_, hs.synced.prune now disk⟩
  · rw [ring_prune]
    exact hs.consistent.prune now
  · rw [ring_prune]
    exact fun rk hrk ↦ hs.usable rk ((KeyRing.ringKeys_prune_sublist _ now).subset hrk)
  · rw [ring_prune]
    exact hs.path

theorem Sound.step {path : String} {h : KeyHost} {op : RingOp} (hop : op.Proper C extras h)
    (hs : Sound F C extras path h) : Sound F C extras path (h.step F op) := by
  cases op with
  | rotate d disk =>
    obtain ⟨hfresh, husable⟩ := hop
    have hc := hs.consistent
    refine ⟨?_, ?_, ?_, hs.synced.rotate hc.current d disk⟩
    · rw [KeyHost.step, ring_rotate]
      exact hc.rotate hfresh
    · intro rk hrk
      rw [KeyHost.step, ring_rotate] at hrk
      rcases KeyRing.mem_ringKeys_rotate hrk with rfl | hrk
      · exact husable
      · exact hs.usable rk hrk
    · obtain ⟨current, hcur⟩ := Option.isSome_iff_exists.mp hc.current
      rw [KeyHost.step, ring_rotate, KeyRing.rotate_eq hc.rs256 hcur]
      exact hs.path
  | prune now disk => exact hs.prune now disk
  | jwksRead now disk => exact hs.prune now disk

theorem Sound.run {config : RingConfig} {s : Startup} {file : Option String} {ring : KeyRing}
    (hboot : KeyRing.rs256 F C config s file = .ok ring) (hfresh : FreshStart C config s ring)
    {ops : List RingOp}
    (hops : Along F (fun h op ↦ op.Proper C (extraKeys C s.now config.publicKeysPem) h)
      (start ring file) ops) : Sound F C (extraKeys C s.now config.publicKeysPem) config.persistPath
      ((start ring file).run F ops) := by
  refine run_invariant F (fun h op hop hs ↦ Sound.step hop hs) ops hops ?_
  refine ⟨.of_rs256 hboot hfresh.kids hfresh.apart, hfresh.usable, ?_, nofun⟩
  obtain ⟨current, retired, rfl⟩ := exists_bareRing_of_rs256 hboot
  rfl

/-- The extra keys are the loadable blocks, each under its own id. -/
theorem exists_extraKey_iff {config : RingConfig} {now : Time}
    (hinj : Set.InjOn (extraKid C) {pem | pem ∈ extraPems C (config.publicKeysPem.getD "")})
    {kid pem : String} :
    (∃ rk, (extraKeys C now config.publicKeysPem).get? kid = some rk ∧ rk.publicPem = pem) ↔
      pem ∈ extraPems C (config.publicKeysPem.getD "") ∧ extraKid C pem = kid := by
  rw [← Option.map_eq_some_iff, map_get?_extraKeys]
  constructor
  · intro hfind
    exact ⟨List.mem_reverse.mp (List.mem_of_find?_eq_some hfind), by
      simpa using List.find?_some hfind⟩
  · rintro ⟨hmem, rfl⟩
    obtain ⟨pem', hfind⟩ := Option.isSome_iff_exists.mp
      (List.find?_isSome (p := fun p : String ↦ extraKid C p = extraKid C pem).mpr
        ⟨pem, List.mem_reverse.mpr hmem, by simp⟩)
    have hkid : extraKid C pem' = extraKid C pem := by simpa using List.find?_some hfind
    rw [hfind, hinj (List.mem_reverse.mp (List.mem_of_find?_eq_some hfind)) hmem hkid]

/-- What holds of the first keys and of every key that is drawn holds of the ring. -/
theorem forall_ringKeys_run {p : RsaKey → Prop} {h : KeyHost} (hring : ∀ rk ∈ h.ring.ringKeys, p rk)
    {ops : List RingOp} (hops : ∀ d disk, .rotate d disk ∈ ops → p d.key) :
    ∀ rk ∈ (h.run F ops).ring.ringKeys, p rk := by
  induction ops generalizing h with
  | nil => exact hring
  | cons op ops ih =>
    refine ih (fun rk hrk ↦ ?_) fun d disk hop ↦ hops d disk (List.mem_cons_of_mem _ hop)
    cases op with
    | rotate d disk =>
      rw [step, ring_rotate] at hrk
      rcases KeyRing.mem_ringKeys_rotate hrk with rfl | hrk
      · exact hops d disk List.mem_cons_self
      · exact hring rk hrk
    | prune now disk | jwksRead now disk =>
      rw [step, ring_prune] at hrk
      exact hring rk ((KeyRing.ringKeys_prune_sublist _ now).subset hrk)

theorem Sound.restart {h : KeyHost} (hF : ∀ rk ∈ h.ring.ringKeys, F.Keeps rk.createdAt)
    {config : RingConfig}
    {s : Startup} (hs : Sound F C (extraKeys C s.now config.publicKeysPem) config.persistPath h)
    (hpath : config.persistPath ≠ "") (hlast : h.lastPersist = some .written)
    (privatePem : Option String) {s' : Startup} (hread : s'.readable = true) :
    ∃ ring', KeyRing.rs256 F C { config with privatePem := privatePem } s' h.file = .ok ring' ∧
      ring'.rsaCurrent = h.ring.rsaCurrent ∧ ring'.rsaRetired = h.ring.rsaRetired ∧
      ∀ kid, ring'.verifyKeyFor kid = h.ring.verifyKeyFor kid := by
  obtain ⟨current, hper, hfile⟩ := hs.synced hlast
  obtain ⟨-, hrs, hpereq⟩ := persistable_of_isSome (Option.isSome_of_eq_some hper)
  have hcur : h.ring.rsaCurrent = some current := hpereq ▸ hper
  have hload : loadPersisted F config.persistPath h.file s'.readable =
      .ok (some (bareRing config.persistPath current h.ring.rsaRetired)) := by
    rw [loadPersisted, if_neg hpath, hfile, hread]
    simp only [Option.filter_some, if_true, Option.bind_eq_bind, Option.bind_some, Json.loads_dumps]
    exact ringOfPayload_payload hF hrs hcur
      (fun rk hrk ↦ ⟨(hs.usable rk hrk).kid, (hs.usable rk hrk).publicPem⟩) _
  have hkeys : h.ring.ringKeys = current :: h.ring.rsaRetired := by
    rw [KeyRing.ringKeys, hcur]
    rfl
  have hextras (kid : String) :
      ((extraKeys C s'.now config.publicKeysPem).get? kid).map RsaKey.publicPem =
        ((extraKeys C s.now config.publicKeysPem).get? kid).map RsaKey.publicPem := by
    rw [map_get?_extraKeys, map_get?_extraKeys]
  have hkids := hs.consistent.kids
  rw [hkeys] at hkids
  have hapart : ∀ rk ∈ current :: h.ring.rsaRetired,
      (extraKeys C s'.now config.publicKeysPem).get? rk.kid = none := by
    intro rk hrk
    have hnone := hs.consistent.apart rk (hkeys ▸ hrk)
    rwa [← Option.map_eq_none_iff, hextras, Option.map_eq_none_iff]
  let ring' := (bareRing config.persistPath current h.ring.rsaRetired).loadExtraPublicKeys C
    config.publicKeysPem s'.now
  have hc' : ring'.Consistent (extraKeys C s'.now config.publicKeysPem) := .start hkids hapart
  refine ⟨ring', ?_, hcur.symm, rfl, fun kid ↦ ?_⟩
  · rw [KeyRing.rs256, hload]
  · exact KeyRing.verifyKeyFor_congr rfl hrs
      (hc'.map_get?_congr hs.consistent hkeys.symm hextras) kid

end KeyHost

/-! ## Two real pairs -/

namespace Sample

def publicPem₁ : String :=
    "-----BEGIN PUBLIC KEY-----\n" ++
    "MIIBIjANBgkqhkiG9w0BAQEFAAOCAQ8AMIIBCgKCAQEAyoxUxXFjLMfbUesoM6pp\n" ++
    "F50Wa7iMI1n53dhf+0kk8pndtHJ+p1NoA9ZkHVn1auPOBUG0BN/5N0oQUPgbM0p5\n" ++
    "GWWB7vGHXBm8xoeOhkABrcOAo0u5CaQVYhOIl0FjRwvKD76ydR7ZUwEDDzpz2dfP\n" ++
    "NXnYIBqG5TtEM06ayJGgzU+GdvOTIpi8TKxPuSjVOjxuiEkmIyqdFGB/YY95SwLV\n" ++
    "ZDSK+rTGrAEo1hat+yw6qifsVDw0RQ/ZaEImkVfUo3qzlCQG3h/8WBtH5ZnbxnHV\n" ++
    "JisOXTQJBrlyneKZWkbhfCppeTrELRueGQssfPJATjp2nH3Z7Ba25zPA0w+h3cUJ\n" ++
    "twIDAQAB\n" ++
    "-----END PUBLIC KEY-----\n"

def publicPem₂ : String :=
    "-----BEGIN PUBLIC KEY-----\n" ++
    "MIIBIjANBgkqhkiG9w0BAQEFAAOCAQ8AMIIBCgKCAQEAw2IGeW8RcV0/lSyjulb8\n" ++
    "ZDnV+1ud1WRuCHFOjPUwLhbiPka0e+A2wvx8EC6Wa2VTAgosg2yziQBhSjoqAjKG\n" ++
    "hFBL1kXnuLPgcJmgKsAHthVkDapSn7wAr5zsUm7XiL+32+zbXbCk/3K/sNobsR1G\n" ++
    "a6t/ZxKWsqwLPSmMKkKdQOtF99GpBgeWTMhPeNnweUAA7KyckUMwio/J1pff9+lu\n" ++
    "7srUCv11yS+sTyyLBNT3C8s55mM9FbB5s3RvARTYFXCgTED0I3fsMmEu2MP25q5n\n" ++
    "93FQLumJav08uaQxteYPG/r0Zgk2g96QpPepQopPkOoSnshQhE2Ym0cONZ2T1l23\n" ++
    "swIDAQAB\n" ++
    "-----END PUBLIC KEY-----\n"

def modulus₁ : ℕ :=
  Nat.ofDigits (2 ^ 256)
    [0x69793AC42D1B9E190B2C7CF2404E3A769C7DD9EC16B6E733C0D30FA1DDC509B7,
     0x942406DE1FFC581B47E599DBC671D5262B0E5D340906B9729DE2995A46E17C2A,
     0x348AFAB4C6AC0128D616ADFB2C3AAA27EC543C34450FD96842269157D4A37AB3,
     0x8676F3932298BC4CAC4FB928D53A3C6E884926232A9D14607F618F794B02D564,
     0x0FBEB2751ED95301030F3A73D9D7CF3579D8201A86E53B44334E9AC891A0CD4F,
     0x6581EEF1875C19BCC6878E864001ADC380A34BB909A415621388974163470BCA,
     0xDDB4727EA7536803D6641D59F56AE3CE0541B404DFF9374A1050F81B334A7919,
     0xCA8C54C571632CC7DB51EB2833AA69179D166BB88C2359F9DDD85FFB4924F299]

def modulus₂ : ℕ :=
  Nat.ofDigits (2 ^ 256)
    [0xF466093683DE90A4F7A9428A4F90EA129EC850844D989B470E359D93D65DB7B3,
     0x4C40F42377EC32612ED8C3F6E6AE67F771502EE9896AFD3CB9A431B5E60F1BFA,
     0xCAD40AFD75C92FAC4F2C8B04D4F70BCB39E6633D15B079B3746F0114D81570A0,
     0x45F7D1A90607964CC84F78D9F0794000ECAC9C9143308A8FC9D697DFF7E96EEE,
     0xDBECDB5DB0A4FF72BFB0DA1BB11D466BAB7F671296B2AC0B3D298C2A429D40EB,
     0x504BD645E7B8B3E07099A02AC007B615640DAA529FBC00AF9CEC526ED788BFB7,
     0xE23E46B47BE036C2FC7C102E966B6553020A2C836CB38900614A3A2A02328684,
     0xC36206796F11715D3F952CA3BA56FC6439D5FB5B9DD5646E08714E8CF5302E16]

def crypto : Crypto where
  publicOf _ := none
  loadable pem := pem = publicPem₁ ∨ pem = publicPem₂
  rsaNumbers pem :=
    if pem = publicPem₁ then some (modulus₁, 65537)
    else if pem = publicPem₂ then some (modulus₂, 65537)
    else none
  sha256 _ := []

def config : RingConfig where
  persistPath := "/var/lib/fusion/keyring.json"

def startup : Startup where
  now := 0
  suffix := "0000000a"
  privatePem := "private half of the first pair"
  publicPem := publicPem₁

def ring : KeyRing :=
  (bareRing config.persistPath startup.key []).loadExtraPublicKeys crypto none 0

def rotation (now : Time) : Draw where
  now := now
  suffix := "0000000b"
  privatePem := "private half of the second pair"
  publicPem := publicPem₂

theorem rs256_eq_ring (F : FloatText) : KeyRing.rs256 F crypto config startup none = .ok ring := rfl

theorem usable₁ : startup.key.Usable crypto where
  kid := by decide
  publicPem := by decide +kernel
  loadable := by decide +kernel
  rsa := by decide +kernel

theorem usable₂ (now : Time) : (rotation now).key.Usable crypto where
  kid := (by decide : "kid-0000000b" ≠ "")
  publicPem := (by decide +kernel : publicPem₂ ≠ "")
  loadable := (by decide +kernel : crypto.loadable publicPem₂ = true)
  rsa := (by decide +kernel : (crypto.rsaNumbers publicPem₂).isSome = true)

theorem freshStart : FreshStart crypto config startup ring where
  kids := List.nodup_singleton _
  apart _ _ := rfl
  extras := by
    intro pem hpem
    exact absurd hpem (List.not_mem_nil (a := pem))
  usable rk hrk := by
    obtain rfl : rk = startup.key := List.mem_singleton.mp hrk
    exact usable₁

theorem proper_rotation (now : Time) (disk : DiskOutcome) :
    (RingOp.rotate (rotation now) disk).Proper crypto
      (extraKeys crypto startup.now config.publicKeysPem) (KeyHost.start ring none) :=
  ⟨⟨(by decide : "kid-0000000b" ∉ ["kid-0000000a"]), rfl⟩, usable₂ now⟩

end Sample

/-! ## The ring, the index and the file -/

namespace KeyHost

variable {F : FloatText} {C : Crypto}

/-- **The ring, its index and its file agree.** After every run of rotations and prunings from
`rs256`, `verify_key_for` knows the current key, the retired keys and the extra keys, each under its
own public key; `jwks` publishes the current and the retired keys; and once a write has succeeded a
restart on the file gives the same ring back, provided that the times of the keys survive being
written and read. -/
theorem consistent_and_recoverable {config : RingConfig} {s : Startup} {file : Option String}
    {ring : KeyRing} (hfirst : ∀ rk ∈ ring.ringKeys, F.Keeps rk.createdAt)
    (hboot : KeyRing.rs256 F C config s file = .ok ring) (hfresh : FreshStart C config s ring)
    {ops : List RingOp} (hdrawn : ∀ d disk, .rotate d disk ∈ ops → F.Keeps d.key.createdAt)
    (hops : Along F (fun h op ↦ op.Proper C (extraKeys C s.now config.publicKeysPem) h)
      (start ring file) ops) :
    let h := (start ring file).run F ops
    (∀ kid pem, h.ring.verifyKeyFor (some kid) = .ok pem ↔
      (∃ rk ∈ h.ring.ringKeys, rk.kid = kid ∧ rk.publicPem = pem) ∨
        pem ∈ extraPems C (config.publicKeysPem.getD "") ∧ extraKid C pem = kid) ∧
    (∃ doc, h.ring.jwks C = .ok doc ∧ List.Forall₂ (Publishes C) h.ring.ringKeys doc) ∧
    (config.persistPath ≠ "" → h.lastPersist = some .written →
      ∀ privatePem s', s'.readable = true →
        ∃ ring', KeyRing.rs256 F C { config with privatePem := privatePem } s' h.file = .ok ring' ∧
          ring'.rsaCurrent = h.ring.rsaCurrent ∧ ring'.rsaRetired = h.ring.rsaRetired ∧
          ∀ kid, ring'.verifyKeyFor kid = h.ring.verifyKeyFor kid) := by
  intro h
  have hs : Sound F C (extraKeys C s.now config.publicKeysPem) config.persistPath h :=
    Sound.run hboot hfresh hops
  refine ⟨fun kid pem ↦ ?_, KeyRing.exists_jwks hs.usable,
    fun hpath hlast privatePem s' hread ↦ hs.restart
      (forall_ringKeys_run (p := fun rk ↦ F.Keeps rk.createdAt) hfirst hdrawn)
        hpath hlast privatePem
      hread⟩
  rw [hs.consistent.verifyKeyFor_eq_ok_iff, exists_extraKey_iff hfresh.extras]
  refine and_iff_right_of_imp ?_
  -- an empty id is nobody's
  rintro (⟨rk, hrk, rfl, -⟩ | ⟨-, rfl⟩)
  · exact (hs.usable rk hrk).kid
  · simp [extraKid]

open Keys.Sample in
/-- A rotation at 100 s that is written: a restart knows both keys. -/
theorem consistent_and_recoverable_rotated :
    let h := (start Sample.ring none).run .fraction [.rotate (rotation 100) .written]
    h.lastPersist = some .written ∧
      ∃ ring', KeyRing.rs256 .fraction crypto config startup h.file = .ok ring' ∧
        ring'.rsaRetired = [startup.key] ∧
        ring'.verifyKeyFor (some "kid-0000000a") = .ok publicPem₁ := by
  intro h
  have hlast : h.lastPersist = some .written := by decide +kernel
  have hops : Along .fraction (fun h op ↦ op.Proper crypto
      (extraKeys crypto startup.now config.publicKeysPem) h)
      (start Sample.ring none) [.rotate (rotation 100) .written] :=
    ⟨proper_rotation 100 .written, trivial⟩
  obtain ⟨hknown, -, hrestart⟩ := consistent_and_recoverable
    (fun rk _ ↦ FloatText.keeps_fraction rk.createdAt) (rs256_eq_ring _) freshStart
    (fun d _ _ ↦ FloatText.keeps_fraction d.key.createdAt) hops
  obtain ⟨ring', hboot, -, hret, hsame⟩ := hrestart (by decide) hlast none startup rfl
  refine ⟨hlast, ring', hboot, hret, (hsame _).trans ((hknown _ _).mpr (.inl ?_))⟩
  exact ⟨startup.key, by decide +kernel, rfl, rfl⟩

/-! ## The grace window -/

/-- A pruning comes upon no key that is older than the window but has been retired within it. -/
def GraceSafe (h : KeyHost) : RingOp → Prop
  | .rotate _ _ => True
  | .prune now _ | .jwksRead now _ =>
    ∀ rk ∈ h.ring.rsaRetired, graceSeconds < now - rk.createdAt →
      ∀ r, (rk, r) ∈ h.retirements → graceSeconds < now - r

/-- The key is retired, and was so at `r`. -/
def Retired (rk : RsaKey) (r : Time) (h : KeyHost) : Prop :=
  rk ∈ h.ring.rsaRetired ∧ (rk, r) ∈ h.retirements

theorem Retired.rotate {h : KeyHost} {rk : RsaKey} {r : Time} (hr : Retired rk r h) (d : Draw)
    (disk : DiskOutcome) : Retired rk r (h.rotate F d disk) := by
  obtain ⟨hret, hlog⟩ := hr
  rw [KeyHost.rotate, KeyRing.rotate]
  rcases h.ring.rsaCurrent with _ | current
  · exact ⟨hret, hlog⟩
  · by_cases hrs : h.ring.algorithm = "RS256" <;> simp [Retired, persist, hrs, hret, hlog]

theorem Retired.prune {h : KeyHost} {rk : RsaKey} {r now : Time} (hr : Retired rk r h)
    (hyoung : ¬graceSeconds < now - rk.createdAt) (disk : DiskOutcome) :
    Retired rk r (h.prune F now disk) := by
  have hlog : (h.prune F now disk).retirements = h.retirements := by
    rw [KeyHost.prune]
    split <;> rfl
  refine ⟨?_, hlog ▸ hr.2⟩
  rw [ring_prune]
  exact List.mem_filter.mpr ⟨hr.1, by simpa [KeyRing.expired] using hyoung⟩

theorem Retired.step {h : KeyHost} {op : RingOp} {rk : RsaKey} {r : Time} (hsafe : GraceSafe h op)
    (hnow : op.now ≤ r + graceSeconds) (hr : Retired rk r h) : Retired rk r (h.step F op) := by
  have hprune {now : Time} (hnow : now ≤ r + graceSeconds)
      (hsafe : ∀ rk ∈ h.ring.rsaRetired, graceSeconds < now - rk.createdAt →
        ∀ r, (rk, r) ∈ h.retirements → graceSeconds < now - r) :
      ¬graceSeconds < now - rk.createdAt := by
    intro hold
    have hlate := hsafe rk hr.1 hold r hr.2
    linarith
  cases op with
  | rotate d disk => exact hr.rotate d disk
  | prune now disk => exact hr.prune (hprune hnow hsafe) disk
  | jwksRead now disk => exact hr.prune (hprune hnow hsafe) disk

theorem Along.and_forall {P : KeyHost → RingOp → Prop} {Q : RingOp → Prop} {h : KeyHost}
    {ops : List RingOp} (hP : Along F P h ops) (hQ : ∀ op ∈ ops, Q op) :
    Along F (fun h op ↦ P h op ∧ Q op) h ops := by
  induction ops generalizing h with
  | nil => trivial
  | cons op ops ih =>
    exact ⟨⟨hP.1, hQ op List.mem_cons_self⟩, ih hP.2 fun op' h' ↦
      hQ op' (List.mem_cons_of_mem _ h')⟩

/-- **The grace window.** In a run whose prunings are all safe, a key that a rotation at `d.now`
retires is found by `verify_key_for` and published by `jwks` for as long as the window lasts. -/
theorem retired_key_graced {config : RingConfig} {s : Startup} {file : Option String}
    {ring : KeyRing} (hboot : KeyRing.rs256 F C config s file = .ok ring)
    (hfresh : FreshStart C config s ring) {before after : List RingOp} {d : Draw}
    {disk : DiskOutcome} {rk : RsaKey}
    (hops : Along F (fun h op ↦ op.Proper C (extraKeys C s.now config.publicKeysPem) h)
      (start ring file) (before ++ .rotate d disk :: after))
    (hsafe : Along F GraceSafe (start ring file) (before ++ .rotate d disk :: after))
    (hcur : ((start ring file).run F before).ring.rsaCurrent = some rk)
    (hwindow : ∀ op ∈ after, op.now ≤ d.now + graceSeconds) :
    let h := (start ring file).run F (before ++ .rotate d disk :: after)
    h.ring.verifyKeyFor (some rk.kid) = .ok rk.publicPem ∧
      ∃ doc, h.ring.jwks C = .ok doc ∧ ∃ jwk ∈ doc, Publishes C rk jwk := by
  intro h
  have hs : Sound F C (extraKeys C s.now config.publicKeysPem) config.persistPath h :=
    Sound.run hboot hfresh hops
  have hs₀ := Sound.run hboot hfresh ((along_append F).mp hops).1
  have hafter := ((along_append F).mp hsafe).2.2
  have hr : Retired rk d.now h := by
    have hrun : h = (((start ring file).run F before).rotate F d disk).run F after :=
      run_append F _ before _
    rw [hrun]
    refine run_invariant F (fun h op hop hr ↦ hr.step hop.1 hop.2) after
      (hafter.and_forall hwindow) ?_
    rw [KeyHost.rotate, KeyRing.rotate_eq hs₀.consistent.rs256 hcur]
    simp [Retired, persist, hcur]
  have hmem : rk ∈ h.ring.ringKeys := List.mem_append_right _ hr.1
  refine ⟨hs.consistent.verifyKeyFor_eq_ok_iff.mpr
    ⟨(hs.usable rk hmem).kid, .inl ⟨rk, hmem, rfl, rfl⟩⟩, ?_⟩
  obtain ⟨doc, hdoc, hall⟩ := KeyRing.exists_jwks hs.usable
  obtain ⟨jwk, hjwk, hpub⟩ := exists_of_forall₂ hall hmem
  exact ⟨doc, hdoc, jwk, hjwk, hpub⟩

open Keys.Sample in
/-- A key made at 0 s and retired at 100 s, when the document is read at 200 s. -/
theorem retired_key_graced_read : ((start Sample.ring none).run .fraction
      [.rotate (rotation 100) .written, .jwksRead 200 .written]).ring.verifyKeyFor
        (some "kid-0000000a") = .ok publicPem₁ := by
  have hops : Along .fraction (fun h op ↦ op.Proper crypto
      (extraKeys crypto startup.now config.publicKeysPem) h)
      (start Sample.ring none)
      ([] ++ [.rotate (rotation 100) .written, .jwksRead 200 .written]) :=
    ⟨proper_rotation 100 .written, trivial, trivial⟩
  have hsafe : Along .fraction GraceSafe (start Sample.ring none)
      ([] ++ [.rotate (rotation 100) .written, .jwksRead 200 .written]) := by
    refine ⟨trivial, fun rk hrk hold ↦ ?_, trivial⟩
    obtain rfl : rk = startup.key := List.mem_singleton.mp hrk
    exact absurd hold (by decide +kernel)
  exact (retired_key_graced (rs256_eq_ring _) freshStart hops hsafe rfl
    (by decide +kernel)).1

open Keys.Sample in
/-- A key made at 0 s and retired at 100000 s is older than the window by then: the next read of the
document, one second later, drops it. -/
theorem retired_key_pruned_at_once :
    let h := (start Sample.ring none).run .fraction
      [.rotate (rotation 100000) .written, .jwksRead 100001 .written]
    Sample.ring.rsaCurrent = some startup.key ∧ (100001 : Time) ≤ 100000 + graceSeconds ∧
      (h.ring.verifyKeyFor (some "kid-0000000a")).toOption = none ∧
      (h.ring.jwks crypto).toOption.map (List.map Jwk.kid) = some ["kid-0000000b"] := by
  exact ⟨rfl, by decide +kernel, by decide +kernel, by decide +kernel⟩

end KeyHost

end FusionIdentity.Keys
