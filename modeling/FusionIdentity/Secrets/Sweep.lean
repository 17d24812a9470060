import FusionIdentity.Secrets.Vault

/-!
# The KEK sweep

`admin_kek_reencrypt` moves secrets from the previous key to the current one. It reads a list of
records and then writes them one by one, and it may stop anywhere.

It leaves a record alone, or replaces its ciphertext by one that reads the same under the current
key (`Idp.Moved`, `MfaRecord.Moved`). The relation is transitive, so it does not matter how often a
sweep starts over, or whether two of them overlap. A run that is cut off is a thread that is not
scheduled again. The table of app credentials it does not look at.
-/

namespace FusionIdentity

open Foundation Foundation.Prog

/-! ## Moving a ciphertext -/

namespace VaultService

variable (S : VaultService) (prev : String)

/-- One of the two keys opens the ciphertext. -/
def Reads (blob plain : String) : Prop :=
  decryptWith S.aes blob S.kek = .ok plain ∨ decryptWith S.aes blob prev = .ok plain

/-- The new ciphertext has the same plaintext, under the current key. -/
def Rekeyed (old new : String) : Prop :=
  ∃ plain, S.Reads prev old plain ∧ decryptWith S.aes new S.kek = .ok plain

variable {S prev}

theorem Reads.unique (hX : S.aes.Ideal S.kek prev) {blob p q : String} (hp : S.Reads prev blob p)
    (hq : S.Reads prev blob q) : p = q := by
  by_cases hsame : S.kek = prev
  · rw [Reads, ← hsame, or_self] at hp hq
    exact Except.ok.inj (hp.symm.trans hq)
  -- otherwise only one of the keys opens the blob
  have hone {p q : String} (hk : decryptWith S.aes blob S.kek = .ok p)
      (hprev : decryptWith S.aes blob prev = .ok q) : False := by
    rw [hX.decryptWith_kek_of_prev hsame hprev] at hk
    cases hk
  rcases hp with hp | hp <;> rcases hq with hq | hq
  · exact Except.ok.inj (hp.symm.trans hq)
  · exact (hone hp hq).elim
  · exact (hone hq hp).elim
  · exact Except.ok.inj (hp.symm.trans hq)

theorem Rekeyed.trans (hX : S.aes.Ideal S.kek prev) {old mid new : String}
    (h : S.Rekeyed prev old mid) (h' : S.Rekeyed prev mid new) : S.Rekeyed prev old new := by
  obtain ⟨p, hold, hmid⟩ := h
  obtain ⟨q, hread, hnew⟩ := h'
  obtain rfl : q = p := Reads.unique hX hread (.inl hmid)
  exact ⟨q, hold, hnew⟩

end VaultService

variable (S : VaultService) (prev : String)

/-- A provider after a sweep has passed. -/
def Idp.Moved (r r' : Idp) : Prop :=
  r' = r ∨ ∃ old new, r.clientSecretEnc = some old ∧ r' = { r with clientSecretEnc := some new } ∧
    S.Rekeyed prev old new

/-- A factor after a sweep has passed. -/
def MfaRecord.Moved (r r' : MfaRecord) : Prop :=
  r' = r ∨ ∃ new, r' = { r with secretEnc := new } ∧ S.Rekeyed prev r.secretEnc new

/-- The tables after sweeps have passed. -/
structure Vault.Moved (v v' : Vault) : Prop where
  idps : v.idps.Pointwise (Idp.Moved S prev) v'.idps
  mfa : v.mfa.Pointwise (MfaRecord.Moved S prev) v'.mfa
  appCredentials : v'.appCredentials = v.appCredentials

variable {S prev}

theorem Idp.Moved.trans (hX : S.aes.Ideal S.kek prev) {r r' r'' : Idp} (h : r.Moved S prev r')
    (h' : r'.Moved S prev r'') : r.Moved S prev r'' := by
  rcases h with rfl | ⟨old, mid, hold, rfl, hmid⟩
  · exact h'
  rcases h' with rfl | ⟨mid', new, hmid', rfl, hnew⟩
  · exact .inr ⟨old, mid, hold, rfl, hmid⟩
  · obtain rfl := Option.some.inj hmid'
    exact .inr ⟨old, new, hold, rfl, hmid.trans hX hnew⟩

theorem MfaRecord.Moved.trans (hX : S.aes.Ideal S.kek prev) {r r' r'' : MfaRecord}
    (h : r.Moved S prev r') (h' : r'.Moved S prev r'') : r.Moved S prev r'' := by
  rcases h with rfl | ⟨mid, rfl, hmid⟩
  · exact h'
  rcases h' with rfl | ⟨new, rfl, hnew⟩
  · exact .inr ⟨mid, rfl, hmid⟩
  · exact .inr ⟨new, rfl, hmid.trans hX hnew⟩

namespace Vault.Moved

theorem refl (v : Vault) : v.Moved S prev v :=
  ⟨.refl (fun _ ↦ .inl rfl) _, .refl (fun _ ↦ .inl rfl) _, rfl⟩

theorem trans (hX : S.aes.Ideal S.kek prev) {v v' v'' : Vault} (h : v.Moved S prev v')
    (h' : v'.Moved S prev v'') : v.Moved S prev v'' :=
  ⟨h.idps.trans (fun h h' ↦ h.trans hX h') h'.idps, h.mfa.trans (fun h h' ↦ h.trans hX h') h'.mfa,
    h'.appCredentials.trans h.appCredentials⟩

end Vault.Moved

/-! ## The methods -/

namespace Vault

variable {b : VaultBackend} {v : Vault}

theorem get?_of_mem_idps {r : Idp} (h : r ∈ v.idps.values) : v.idps.get? r.idpId = some r := by
  obtain ⟨k, hk⟩ := Dict.mem_values_iff.mp h
  rwa [v.idpsKeyed hk]

theorem get?_of_mem_mfa {r : MfaRecord} (h : r ∈ v.mfa.values) :
    v.mfa.get? (r.userId, r.method) = some r := by
  obtain ⟨k, hk⟩ := Dict.mem_values_iff.mp h
  rwa [v.mfaKeyed hk]

theorem mem_listAllIdps {r : Idp} (h : r ∈ v.listAllIdps b) :
    v.idps.get? r.idpId = some r ∧ b.sees r = true := by
  cases b with
  | inMemory => exact ⟨get?_of_mem_idps (List.mem_filter.mp h).1, rfl⟩
  | postgres tenant =>
    obtain ⟨hmem, hsees⟩ := List.mem_filter.mp (List.mem_mergeSort.mp h)
    exact ⟨get?_of_mem_idps hmem, (Bool.and_eq_true_iff.mp hsees).1⟩

theorem mem_listAllMfa {r : MfaRecord} (h : r ∈ v.listAllMfa b) :
    v.mfa.get? (r.userId, r.method) = some r := by
  cases b with
  | inMemory => exact get?_of_mem_mfa (List.mem_filter.mp h).1
  | postgres tenant => exact get?_of_mem_mfa (List.mem_mergeSort.mp h)

theorem write_clientSecretEnc (new : String) (r : Idp) :
    IdpFields.write { clientSecretEnc := some new } r = { r with clientSecretEnc := some new } := by
  cases r
  rfl

theorem get?_writeIdp (idpId : String) (fields : IdpFields) (k : String) :
    (v.writeIdp idpId fields).idps.get? k =
      if k = idpId then (v.idps.get? k).map fields.write else v.idps.get? k :=
  Dict.get?_modify _ _ _ _

theorem get?_setMfa (r : MfaRecord) (k : String × String) :
    (v.setMfa r).mfa.get? k = if k = (r.userId, r.method) then some r else v.mfa.get? k :=
  Dict.get?_set _ _ _ _

theorem get?_popMfa (u method : String) (k : String × String) :
    (v.popMfa u method).mfa.get? k = if k = (u, method) then none else v.mfa.get? k :=
  Dict.get?_pop _ _ _

end Vault

/-! ## What a sweep has read, and what it writes -/

/-- The lists that a sweep has read. -/
structure Known where
  idps : List Idp
  mfa : List MfaRecord

variable (S prev) in
/-- The ciphertext opens under the previous key, and the new one is its plaintext under the current
key. -/
def Converts (old new : String) : Prop :=
  ∃ plain, decryptWith S.aes old prev = .ok plain ∧ decryptWith S.aes new S.kek = .ok plain

variable (S prev) in
/-- A sweep writes a record only if it has read it. -/
def sweepDiscipline : Discipline vaultSig Known where
  allowed t c :=
    match c with
    | .updateIdp idpId fields => ∃ idp ∈ t.idps, idp.idpId = idpId ∧ ∃ old new,
        idp.clientSecretEnc = some old ∧ fields = { clientSecretEnc := some new } ∧
        Converts S prev old new
    | .upsertMfa userId method new enabled => ∃ r ∈ t.mfa, r.userId = userId ∧ r.method = method ∧
        r.enabled = enabled ∧ Converts S prev r.secretEnc new
    | .listAllIdps | .listAllMfa | .urandom => True
    | _ => False
  rely _ _ _ := True
  next t c r :=
    match c, r with
    | .listAllIdps, .ok idps => { t with idps := idps }
    | .listAllMfa, .ok factors => { t with mfa := factors }
    | _, _ => t

theorem reencrypt_wp (hX : S.aes.Ideal S.kek prev) (blob : String) (t : Known) :
    (S.reencrypt prev blob).wp (sweepDiscipline S prev)
      (fun r t' ↦ t' = t ∧ ∀ new, r = .ok (some new) → Converts S prev blob new) t := by
  rw [VaultService.reencrypt]
  split
  · rename_i plain hplain
    rw [callVault, wp_perform_bind]
    refine ⟨trivial, fun nonce _ ↦ ⟨rfl, ?_⟩, fun e _ ↦ ⟨rfl, nofun⟩⟩
    intro new hnew
    obtain rfl := Option.some.inj (Except.ok.inj hnew)
    exact ⟨plain, decryptSecret_none_eq_ok.mp hplain, hX.decryptWith_encryptSecret plain nonce⟩
  · exact ⟨rfl, nofun⟩
  · exact ⟨rfl, nofun⟩

theorem sweepIdps_wp (hX : S.aes.Ideal S.kek prev) {l : List Idp} {t : Known}
    (hl : ∀ idp ∈ l, idp ∈ t.idps) (n : SweepReport) :
    (S.sweepIdps prev l n).wp (sweepDiscipline S prev) (fun _ t' ↦ t' = t) t := by
  induction l generalizing n with
  | nil => exact rfl
  | cons idp rest ih =>
    have hrest (n : SweepReport) := ih (fun r hr ↦ hl r (List.mem_cons_of_mem _ hr)) n
    rw [VaultService.sweepIdps]
    split
    · exact hrest _
    rename_i blob hblob
    rw [wp_bind]
    refine wp_mono (reencrypt_wp hX blob t) ?_
    rintro (e | _ | new) t' ⟨rfl, hnew⟩
    · rfl
    · exact hrest _
    · change Prog.wp _ (callVault _ >>= _) _ _
      rw [callVault, wp_perform_bind]
      refine ⟨⟨idp, hl idp List.mem_cons_self, rfl, blob, new, ?_, rfl, hnew new rfl⟩,
        fun _ _ ↦ hrest _, fun _ _ ↦ rfl⟩
      exact (Option.filter_eq_some_iff.mp hblob).1

theorem sweepMfa_wp (hX : S.aes.Ideal S.kek prev) {l : List MfaRecord} {t : Known}
    (hl : ∀ r ∈ l, r ∈ t.mfa) (n : SweepReport) :
    (S.sweepMfa prev l n).wp (sweepDiscipline S prev) (fun _ t' ↦ t' = t) t := by
  induction l generalizing n with
  | nil => exact rfl
  | cons r rest ih =>
    have hrest (n : SweepReport) := ih (fun r hr ↦ hl r (List.mem_cons_of_mem _ hr)) n
    rw [VaultService.sweepMfa]
    split
    · exact hrest _
    rw [wp_bind]
    refine wp_mono (reencrypt_wp hX r.secretEnc t) ?_
    rintro (e | _ | new) t' ⟨rfl, hnew⟩
    · rfl
    · exact hrest _
    · change Prog.wp _ (callVault _ >>= _) _ _
      rw [callVault, wp_perform_bind]
      exact ⟨⟨r, hl r List.mem_cons_self, rfl, rfl, rfl, hnew new rfl⟩, fun _ _ ↦ hrest _,
        fun _ _ ↦ rfl⟩

theorem kekReencrypt_wp (hX : S.aes.Ideal S.kek prev) (hprev : S.kekPrev = some prev) :
    S.kekReencrypt.wp (sweepDiscipline S prev) (fun _ _ ↦ True) ⟨[], []⟩ := by
  rw [VaultService.kekReencrypt, hprev]
  split
  · trivial
  rename_i prev' hprev'
  obtain rfl : prev' = prev := (Option.some.inj (Option.filter_eq_some_iff.mp hprev').1).symm
  rw [callVault, wp_perform_bind]
  refine ⟨trivial, fun idps _ ↦ ?_, fun _ _ ↦ trivial⟩
  rw [wp_bind]
  refine wp_mono (sweepIdps_wp (t := ⟨idps, []⟩) hX (fun _ h ↦ h) {}) ?_
  rintro (e | n) t rfl
  · trivial
  change Prog.wp _ (callVault _ >>= _) _ _
  rw [callVault, wp_perform_bind]
  refine ⟨trivial, fun factors _ ↦ ?_, fun _ _ ↦ trivial⟩
  exact wp_mono (sweepMfa_wp (t := ⟨idps, factors⟩) hX (fun _ h ↦ h) n) fun _ _ _ ↦ trivial

/-! ## Sweeps, one after the other and at the same time -/

variable (S prev) in
def sweeps (b : VaultBackend) : Server vaultSig SweepReport Unit Vault VaultInput Known where
  prog _ := S.kekReencrypt
  exec := b.exec
  admissible _ _ _ := True
  startable _ _ := True
  discipline := sweepDiscipline S prev
  start _ := ⟨[], []⟩
  decAdmissible _ _ _ := inferInstance
  decStartable _ _ := inferInstance

abbrev SweepConf := Conf vaultSig SweepReport Unit Vault Known

variable (S prev) in
/-- The records in the lists still exist, and have at most been moved. -/
structure Known.Current (t : Known) (v : Vault) : Prop where
  idps : ∀ r ∈ t.idps, ∃ r', v.idps.get? r.idpId = some r' ∧ r.Moved S prev r'
  mfa : ∀ r ∈ t.mfa, ∃ r', v.mfa.get? (r.userId, r.method) = some r' ∧ r.Moved S prev r'

namespace Known.Current

variable {b : VaultBackend} {t : Known} {v v' : Vault}

theorem moved (hX : S.aes.Ideal S.kek prev) (h : t.Current S prev v) (hv : v.Moved S prev v') :
    t.Current S prev v' := by
  constructor
  · intro r hr
    obtain ⟨r', hr', hmoved⟩ := h.idps r hr
    obtain ⟨r'', hr'', hmoved'⟩ := hv.idps.exists_of_get? hr'
    exact ⟨r'', hr'', hmoved.trans hX hmoved'⟩
  · intro r hr
    obtain ⟨r', hr', hmoved⟩ := h.mfa r hr
    obtain ⟨r'', hr'', hmoved'⟩ := hv.mfa.exists_of_get? hr'
    exact ⟨r'', hr'', hmoved.trans hX hmoved'⟩

theorem rekeyed_of_converts (hX : S.aes.Ideal S.kek prev) {old cur new : String}
    (hcur : cur = old ∨ S.Rekeyed prev old cur) (h : Converts S prev old new) :
    S.Rekeyed prev cur new := by
  obtain ⟨plain, hold, hnew⟩ := h
  rcases hcur with rfl | ⟨p, hread, hcur⟩
  · exact ⟨plain, .inr hold, hnew⟩
  · obtain rfl : p = plain := VaultService.Reads.unique hX hread (.inr hold)
    exact ⟨p, .inl hcur, hnew⟩

theorem updateIdp (hX : S.aes.Ideal S.kek prev) (h : t.Current S prev v) {idp : Idp}
    (hidp : idp ∈ t.idps) {old new : String} (hold : idp.clientSecretEnc = some old)
    (hconv : Converts S prev old new) :
    v.Moved S prev (v.updateIdp b idp.idpId { clientSecretEnc := some new }).2 := by
  rw [Vault.updateIdp]
  split
  · exact .refl v
  obtain ⟨cur, hcur, hmoved⟩ := h.idps idp hidp
  refine ⟨?_, .refl (fun _ ↦ .inl rfl) _, rfl⟩
  have hcurOld : ∃ blob, cur.clientSecretEnc = some blob ∧
      (blob = old ∨ S.Rekeyed prev old blob) := by
    rcases hmoved with rfl | ⟨old', mid, hold', rfl, hmid⟩
    · exact ⟨old, hold, .inl rfl⟩
    · obtain rfl : old' = old := Option.some.inj (hold'.symm.trans hold)
      exact ⟨mid, rfl, .inr hmid⟩
  obtain ⟨blob, hblob, hread⟩ := hcurOld
  refine .of_get? (fun _ ↦ .inl rfl) hcur
    (.inr ⟨blob, new, hblob, rfl, rekeyed_of_converts hX hread hconv⟩) ?_
  intro k
  rw [Vault.get?_writeIdp]
  by_cases hk : k = idp.idpId
  · rw [if_pos hk, if_pos hk, hk, hcur, Option.map_some, Vault.write_clientSecretEnc]
  · rw [if_neg hk, if_neg hk]

theorem upsertMfa (hX : S.aes.Ideal S.kek prev) (h : t.Current S prev v) {r : MfaRecord}
    (hr : r ∈ t.mfa) {new : String} (hconv : Converts S prev r.secretEnc new) (now : Time) :
    v.Moved S prev (v.setMfa (v.upserted r.userId r.method new r.enabled now)) := by
  obtain ⟨cur, hcur, hmoved⟩ := h.mfa r hr
  refine ⟨.refl (fun _ ↦ .inl rfl) _, ?_, rfl⟩
  -- the row that is written is the current row with another ciphertext
  have hrow : v.upserted r.userId r.method new r.enabled now = { cur with secretEnc := new } := by
    rw [Vault.upserted, hcur]
    rcases hmoved with rfl | ⟨mid, rfl, -⟩ <;> rfl
  have hread : cur.secretEnc = r.secretEnc ∨ S.Rekeyed prev r.secretEnc cur.secretEnc := by
    rcases hmoved with rfl | ⟨mid, rfl, hmid⟩
    · exact .inl rfl
    · exact .inr hmid
  refine .of_get? (fun _ ↦ .inl rfl) hcur
    (.inr ⟨new, rfl, rekeyed_of_converts hX hread hconv⟩) ?_
  intro k
  rw [Vault.get?_setMfa, hrow, ← v.mfaKeyed hcur]

theorem exec (hX : S.aes.Ideal S.kek prev) (h : t.Current S prev v) {c : VaultCall}
    (hc : (sweepDiscipline S prev).allowed t c) (input : VaultInput) :
    v.Moved S prev (b.exec c input v).2 := by
  cases c with
  | updateIdp idpId fields =>
    obtain ⟨idp, hidp, rfl, old, new, hold, rfl, hconv⟩ := hc
    exact h.updateIdp hX hidp hold hconv
  | upsertMfa userId method new enabled =>
    obtain ⟨r, hr, rfl, rfl, rfl, hconv⟩ := hc
    exact h.upsertMfa hX hr hconv input.now
  | listAllIdps | listAllMfa | urandom => exact .refl v
  | getMfa | deleteMfa | getUser | appendAudit | randomBase32 | time => exact hc.elim

theorem next (h : t.Current S prev v) {c : VaultCall} (hc : (sweepDiscipline S prev).allowed t c)
    (input : VaultInput) (hstep : t.Current S prev (b.exec c input v).2) :
    ((sweepDiscipline S prev).next t c (b.exec c input v).1).Current S prev
      (b.exec c input v).2 := by
  cases c with
  | listAllIdps =>
    exact ⟨fun r hr ↦ ⟨r, (Vault.mem_listAllIdps hr).1, .inl rfl⟩, h.mfa⟩
  | listAllMfa => exact ⟨h.idps, fun r hr ↦ ⟨r, Vault.mem_listAllMfa hr, .inl rfl⟩⟩
  | updateIdp | upsertMfa | urandom => exact hstep
  | getMfa | deleteMfa | getUser | appendAudit | randomBase32 | time => exact hc.elim

end Known.Current

variable (S prev) in
/-- Every sweep works from lists that are current. -/
def SweepsCurrent (C : SweepConf) : Prop := ∀ th ∈ C.threads, th.phase.Current S prev C.state

/-- **Along every schedule of sweeps, the tables only move.** -/
theorem sweeps_moved (hX : S.aes.Ideal S.kek prev) (hprev : S.kekPrev = some prev)
    {b : VaultBackend} {ls : List (Label Unit VaultInput)} {C C' : SweepConf}
    (hC : SweepsCurrent S prev C) (hdis : (sweeps S prev b).Disciplined (fun _ _ _ ↦ True) C)
    (hrun : (sweeps S prev b).run ls C = some C') :
    (SweepsCurrent S prev C' ∧ C.state.Moved S prev C'.state) ∧
      (sweeps S prev b).Disciplined (fun _ _ _ ↦ True) C' := by
  refine Server.disciplined_invariant (V := sweeps S prev b)
    (P := fun D ↦ SweepsCurrent S prev D ∧ C.state.Moved S prev D.state)
    (fun _ ↦ kekReencrypt_wp hX hprev) ?_ ?_ ⟨hC, .refl _⟩ hdis hrun
  · rintro D ⟨⟩ ⟨hD, hmoved⟩ -
    refine ⟨fun th hth ↦ ?_, hmoved⟩
    rcases List.mem_append.mp hth with hth | hth
    · exact hD th hth
    · rw [List.mem_singleton.mp hth]
      exact ⟨nofun, nofun⟩
  · rintro D i th c k input ⟨hD, hmoved⟩ hth - hc -
    have hcur := hD th (List.mem_of_getElem? hth)
    have hstep : D.state.Moved S prev (b.exec c input D.state).2 := hcur.exec hX hc input
    refine ⟨trivial, fun th' hth' ↦ ?_, hmoved.trans hX hstep⟩
    rcases Server.mem_threads_answered hth' with hth' | rfl
    · exact (hD th' hth').moved hX hstep
    · exact hcur.next hc input (hcur.moved hX hstep)

/-! ## A vault to run on -/

/-- One encryption of AES-GCM. -/
structure AesEntry where
  key : List UInt8
  nonce : List UInt8
  plaintext : List UInt8
  ciphertext : List UInt8
  deriving DecidableEq

/-- AES-GCM on the entries of a table. Elsewhere, the key followed by the plaintext. -/
def Aes.tabled (deriveKek : String → List UInt8) (table : List AesEntry) : Aes where
  deriveKek := deriveKek
  encrypt key nonce plaintext :=
    match table.find? fun e ↦ e.key = key ∧ e.nonce = nonce ∧ e.plaintext = plaintext with
    | some e => e.ciphertext
    | none => key ++ plaintext
  decrypt key nonce ciphertext :=
    match table.find? fun e ↦ e.key = key ∧ e.nonce = nonce ∧ e.ciphertext = ciphertext with
    | some e => some e.plaintext
    | none => if key.isPrefixOf ciphertext then some (ciphertext.drop key.length) else none

/-- The table is that of an authenticated encryption, and does not meet what happens elsewhere. -/
structure AesEntry.Proper (table : List AesEntry) (keys : List (List UInt8)) : Prop where
  functional : ∀ e ∈ table, ∀ e' ∈ table, e.nonce = e'.nonce → e.ciphertext = e'.ciphertext → e = e'
  apart : ∀ e ∈ table, e.ciphertext ≠ [] ∧ ∀ key ∈ keys, ¬key.isPrefixOf e.ciphertext
  keys : ∀ key ∈ keys, key ≠ [] ∧ ∀ key' ∈ keys, key.length = key'.length

theorem Aes.ideal_tabled {deriveKek : String → List UInt8} {table : List AesEntry}
    {kek prev : String} (hkeys : deriveKek kek ≠ deriveKek prev)
    (h : AesEntry.Proper table [deriveKek kek, deriveKek prev]) :
    (Aes.tabled deriveKek table).Ideal kek prev := by
  have hfound {key nonce ciphertext : List UInt8} {e : AesEntry}
      (he : table.find? (fun e ↦ e.key = key ∧ e.nonce = nonce ∧
        e.ciphertext = ciphertext) = some e) :
      e ∈ table ∧ e.key = key ∧ e.nonce = nonce ∧ e.ciphertext = ciphertext :=
    ⟨List.mem_of_find?_eq_some he, by simpa using List.find?_some he⟩
  -- what starts with one of the keys is not in the table
  have hnone {key key' nonce rest : List UInt8} (hkey : key' ∈ [deriveKek kek, deriveKek prev]) :
      table.find? (fun e ↦ e.key = key ∧ e.nonce = nonce ∧ e.ciphertext = key' ++ rest) = none := by
    rw [List.find?_eq_none]
    intro e he hmatch
    obtain ⟨-, -, hct⟩ : e.key = key ∧ e.nonce = nonce ∧ e.ciphertext = key' ++ rest := by
      simpa using hmatch
    refine (h.apart e he).2 key' hkey ?_
    rw [hct, List.isPrefixOf_iff_prefix]
    exact List.prefix_append key' rest
  refine ⟨?_, ?_, ?_⟩
  · intro nonce plaintext
    simp only [tabled]
    rcases hf : table.find? (fun e ↦ e.key = deriveKek kek ∧ e.nonce = nonce ∧
        e.plaintext = plaintext) with _ | e
    · rw [hf]
      dsimp only
      rw [hnone List.mem_cons_self]
      simp
    · have he := List.mem_of_find?_eq_some hf
      obtain ⟨hkey, hnonce, hplain⟩ : e.key = deriveKek kek ∧ e.nonce = nonce ∧
          e.plaintext = plaintext := by simpa using List.find?_some hf
      rw [hf]
      dsimp only
      rcases hf' : table.find? (fun e' ↦ e'.key = deriveKek kek ∧ e'.nonce = nonce ∧
          e'.ciphertext = e.ciphertext) with _ | e'
      · refine absurd (List.find?_eq_none.mp hf' e he) ?_
        simp [hkey, hnonce]
      · obtain ⟨hmem, -, hnonce', hct⟩ := hfound hf'
        rw [hf', ← h.functional e he e' hmem (hnonce.trans hnonce'.symm) hct.symm]
        exact congrArg some hplain
  · intro nonce plaintext
    simp only [tabled]
    split
    · rename_i e he
      exact (h.apart e (List.mem_of_find?_eq_some he)).1
    · exact List.append_ne_nil_of_left_ne_nil (h.keys _ List.mem_cons_self).1 _
  · intro _ nonce ciphertext plaintext hopen
    have hprev : deriveKek prev ∈ [deriveKek kek, deriveKek prev] := by simp
    simp only [tabled] at hopen ⊢
    split at hopen
    · rename_i e he
      obtain ⟨hmem, hkey, hnonce, rfl⟩ := hfound he
      rcases hf : table.find? (fun e' ↦ e'.key = deriveKek kek ∧ e'.nonce = nonce ∧
          e'.ciphertext = e.ciphertext) with _ | e'
      · rw [hf]
        exact if_neg ((h.apart e hmem).2 _ List.mem_cons_self)
      · obtain ⟨hmem', hkey', hnonce', hct⟩ := hfound hf
        obtain rfl := h.functional e hmem e' hmem' (hnonce.trans hnonce'.symm) hct.symm
        exact absurd (hkey'.symm.trans hkey) hkeys
    · split_ifs at hopen with hprefix
      obtain ⟨rest, rfl⟩ := List.isPrefixOf_iff_prefix.mp hprefix
      rw [hnone hprev]
      refine if_neg fun hpre ↦ hkeys ?_
      -- two prefixes of one length are the same
      obtain ⟨rest', heq⟩ := List.isPrefixOf_iff_prefix.mp hpre
      exact (List.append_inj heq ((h.keys _ List.mem_cons_self).2 _ hprev)).1

namespace Sample

def newKek : String := "a new key-encryption key"

def oldKek : String := "the key-encryption key of last year"

def newKey : List UInt8 :=
  [210, 216, 103, 7, 141, 165, 57, 82, 126, 145, 239, 145, 188, 109, 109, 128, 32, 141, 142,
  177, 71, 138, 245, 166, 251, 55, 152, 231, 118, 196, 186, 151]

def oldKey : List UInt8 :=
  [53, 195, 217, 7, 61, 180, 214, 185, 174, 71, 174, 109, 191, 232, 160, 163, 196, 79, 38, 151,
  109, 175, 31, 34, 124, 199, 243, 34, 158, 83, 147, 99]

def deriveKek (material : String) : List UInt8 :=
  if material = newKek then newKey else if material = oldKek then oldKey else utf8 material

def oldIdpBlob : String := "AQIDBAUGBwgJCgsMJlZ89CGCUVU28+Tn8zzNoJtv/sgRf6+W9ghEjSdcm0ya1g=="

def oldMfaBlob : String := "ERITFBUWFxgZGhscewxlkjDqHoERLFIk1uFMAoCV/wU5SILUO6l3hmuoVQw="

def oldAppBlob : String := "ISIjJCUmJygpKiss1QCKS3t2WBWXi9IhfziEF/DN4cKEKUHklUg="

def newIdpBlob : String :=
  "MTIzNDU2Nzg5Ojs8w+a41y/yLS4NQHJZ5WDeqcEM6unJ+cGVPVWOrRfVYd/2QQ=="

def newMfaBlob : String := "QUJDREVGR0hJSktMsmxqlwViaPnMMLqKKR4nNZNq3ZbbzSlbLH1oc+0SUS8="

def nonceOf (first : UInt8) : Nonce :=
  ⟨[first, first + 1, first + 2, first + 3, first + 4, first + 5, first + 6, first + 7, first + 8,
    first + 9, first + 10, first + 11], rfl⟩

def aesTable : List AesEntry :=
  [⟨oldKey, (nonceOf 1).bytes, utf8 "oidc client secret",
      [38, 86, 124, 244, 33, 130, 81, 85, 54, 243, 228, 231, 243, 60, 205, 160, 155, 111, 254,
      200, 17, 127, 175, 150, 246, 8, 68, 141, 39, 92, 155, 76, 154, 214]⟩,
    ⟨oldKey, (nonceOf 17).bytes, utf8 "JBSWY3DPEHPK3PXP",
      [123, 12, 101, 146, 48, 234, 30, 129, 17, 44, 82, 36, 214, 225, 76, 2, 128, 149, 255, 5,
      57, 72, 130, 212, 59, 169, 119, 134, 107, 168, 85, 12]⟩,
    ⟨oldKey, (nonceOf 33).bytes, utf8 "sk-live-42",
      [213, 0, 138, 75, 123, 118, 88, 21, 151, 139, 210, 33, 127, 56, 132, 23, 240, 205, 225,
      194, 132, 41, 65, 228, 149, 72]⟩,
    ⟨newKey, (nonceOf 49).bytes, utf8 "oidc client secret",
      [195, 230, 184, 215, 47, 242, 45, 46, 13, 64, 114, 89, 229, 96, 222, 169, 193, 12, 234,
      233, 201, 249, 193, 149, 61, 85, 142, 173, 23, 213, 97, 223, 246, 65]⟩,
    ⟨newKey, (nonceOf 65).bytes, utf8 "JBSWY3DPEHPK3PXP",
      [178, 108, 106, 151, 5, 98, 104, 249, 204, 48, 186, 138, 41, 30, 39, 53, 147, 106, 221,
      150, 219, 205, 41, 91, 44, 125, 104, 115, 237, 18, 81, 47]⟩,
    ⟨newKey, (nonceOf 81).bytes, utf8 "KRSXG5CTMVRXEZLU",
      [171, 111, 40, 169, 165, 31, 192, 234, 103, 172, 87, 39, 196, 30, 203, 64, 118, 2, 79, 23,
      230, 61, 208, 242, 176, 153, 218, 104, 102, 122, 94, 227]⟩]

/-- The service in the middle of a rotation. The code `000000` is right for every secret. -/
def vaultService : VaultService where
  aes := .tabled deriveKek aesTable
  totp := ⟨fun _ code _ ↦ code = "000000", fun secret name issuer ↦
    "otpauth://totp/" ++ issuer ++ ":" ++ name ++ "?secret=" ++ secret ++ "&issuer=" ++ issuer⟩
  kek := newKek
  kekPrev := some oldKek

theorem aesIdeal : vaultService.aes.Ideal newKek oldKek := by
  refine Aes.ideal_tabled (by decide +kernel) ⟨?_, ?_, ?_⟩
  · decide +kernel
  · decide +kernel
  · decide +kernel

def okta : Idp :=
  { idpId := "okta", tenantId := "acme", clientSecretEnc := oldIdpBlob, createdAt := 5 }

def factor : MfaRecord := ⟨"u1", "totp", oldMfaBlob, 7, false⟩

def vault : Vault where
  idps := ⟨[("okta", okta)], by simp⟩
  mfa := ⟨[(("u1", "totp"), factor)], by simp⟩
  appCredentials := ⟨[(("tryon", "vton"), ⟨"tryon", "vton", oldAppBlob, 3, 3, 0, none⟩)], by simp⟩
  usernames := ⟨[("u1", "ann")], by simp⟩
  idpsKeyed {k r} h := by
    obtain ⟨rfl, rfl⟩ : k = "okta" ∧ r = okta := by simpa using Dict.get?_eq_some_iff.mp h
    rfl
  mfaKeyed {k r} h := by
    obtain ⟨rfl, rfl⟩ : k = ("u1", "totp") ∧ r = factor := by simpa using Dict.get?_eq_some_iff.mp h
    rfl

def vaultInput (first : UInt8) : VaultInput := ⟨100, nonceOf first, "KRSXG5CTMVRXEZLU"⟩

end Sample

/-! ## What a ciphertext may become -/

/-- With both keys the ciphertext reads as before; a ciphertext under the current key stays under
it; and one that neither key opens stays what it is. -/
structure VaultService.Retains (S : VaultService) (blob blob' : String) : Prop where
  readable : ∀ plain, decryptSecret S.aes blob S.kek S.kekPrev = .ok plain →
    decryptSecret S.aes blob' S.kek S.kekPrev = .ok plain
  current : ∀ plain, decryptWith S.aes blob S.kek = .ok plain →
    decryptWith S.aes blob' S.kek = .ok plain
  damaged : ∀ e, decryptSecret S.aes blob S.kek S.kekPrev = .error e → blob' = blob

theorem VaultService.Retains.refl (S : VaultService) (blob : String) : S.Retains blob blob :=
  ⟨fun _ h ↦ h, fun _ h ↦ h, fun _ _ ↦ rfl⟩

theorem VaultService.Rekeyed.retains (hX : S.aes.Ideal S.kek prev) (hprev : S.kekPrev = some prev)
    (hne : prev ≠ "") {old new : String} (h : S.Rekeyed prev old new) : S.Retains old new := by
  obtain ⟨plain, hold, hnew⟩ := h
  refine ⟨?_, ?_, ?_⟩
  · intro p hp
    rw [hprev, hX.decryptSecret_eq_ok hne] at hp ⊢
    obtain rfl : p = plain := Reads.unique hX hp hold
    exact .inl hnew
  · intro p hp
    obtain rfl : p = plain := Reads.unique hX (.inl hp) hold
    exact hnew
  · intro e he
    rw [hprev, (hX.decryptSecret_eq_ok hne).mpr hold] at he
    cases he

theorem Idp.Moved.retains (hX : S.aes.Ideal S.kek prev) (hprev : S.kekPrev = some prev)
    (hne : prev ≠ "") {r r' : Idp} (h : r.Moved S prev r') :
    r' = { r with clientSecretEnc := r'.clientSecretEnc } ∧
      Option.Rel S.Retains r.clientSecretEnc r'.clientSecretEnc := by
  rcases h with rfl | ⟨old, new, hold, rfl, hnew⟩
  · refine ⟨rfl, ?_⟩
    cases r'.clientSecretEnc with
    | none => exact .none
    | some blob => exact .some (.refl S blob)
  · refine ⟨rfl, ?_⟩
    rw [hold]
    exact .some (hnew.retains hX hprev hne)

theorem MfaRecord.Moved.retains (hX : S.aes.Ideal S.kek prev) (hprev : S.kekPrev = some prev)
    (hne : prev ≠ "") {r r' : MfaRecord} (h : r.Moved S prev r') :
    r' = { r with secretEnc := r'.secretEnc } ∧ S.Retains r.secretEnc r'.secretEnc := by
  rcases h with rfl | ⟨new, rfl, hnew⟩
  · exact ⟨rfl, .refl S _⟩
  · exact ⟨rfl, hnew.retains hX hprev hne⟩

/-- **The sweep is resumable.** Take any two moments of any schedule of sweeps, each of which may
have been cut off anywhere. Between them no record appears or disappears, and a record differs at
most in its ciphertext, which reads as before, does not leave the current key, and is the same if it
could not be read. -/
theorem sweeps_resumable (hX : S.aes.Ideal S.kek prev) (hprev : S.kekPrev = some prev)
    (hne : prev ≠ "") {b : VaultBackend} {v : Vault} {before after : List (Label Unit VaultInput)}
    {C₁ C₂ : SweepConf} (h₁ : (sweeps S prev b).run before ⟨v, []⟩ = some C₁)
    (h₂ : (sweeps S prev b).run after C₁ = some C₂) :
    C₁.state.idps.Pointwise (fun r r' ↦ r' = { r with clientSecretEnc := r'.clientSecretEnc } ∧
      Option.Rel S.Retains r.clientSecretEnc r'.clientSecretEnc) C₂.state.idps ∧
    C₁.state.mfa.Pointwise (fun r r' ↦ r' = { r with secretEnc := r'.secretEnc } ∧
      S.Retains r.secretEnc r'.secretEnc) C₂.state.mfa := by
  obtain ⟨⟨hcurrent, -⟩, hdis⟩ := sweeps_moved (C := ⟨v, []⟩) hX hprev
    (fun _ hth ↦ absurd hth List.not_mem_nil) (Server.disciplined_nil _ v) h₁
  obtain ⟨⟨-, hmoved⟩, -⟩ := sweeps_moved hX hprev hcurrent hdis h₂
  exact ⟨hmoved.idps.mono fun h ↦ h.retains hX hprev hne,
    hmoved.mfa.mono fun h ↦ h.retains hX hprev hne⟩

open Sample in
/-- A sweep is cut off when it has moved the provider; another one passes over the provider and
moves the factor, which is not enabled and stays so. -/
theorem sweeps_resumable_after_cut : ∃ C₁ C₂ : SweepConf,
      (sweeps vaultService oldKek .inMemory).run [.spawn (),
        .step 0 (vaultInput 1), .step 0 (vaultInput 49), .step 0 (vaultInput 1)]
        ⟨vault, []⟩ = some C₁ ∧
      (sweeps vaultService oldKek .inMemory).run [.spawn (),
        .step 1 (vaultInput 1), .step 1 (vaultInput 1), .step 1 (vaultInput 65),
        .step 1 (vaultInput 1)] C₁ = some C₂ ∧
      C₁.state.blobAt (.idp "okta") = some newIdpBlob ∧
      C₂.state.blobAt (.mfa "u1" "totp") = some newMfaBlob ∧
      ∃ r, C₂.state.mfa.get? ("u1", "totp") = some r ∧ r.enabled = false ∧
        decryptSecret vaultService.aes r.secretEnc newKek (some oldKek) =
          .ok "JBSWY3DPEHPK3PXP" := by
  have heval : ∃ C₁ ∈ (sweeps vaultService oldKek .inMemory).run [.spawn (),
      .step 0 (vaultInput 1), .step 0 (vaultInput 49), .step 0 (vaultInput 1)]
      ⟨vault, []⟩,
        C₁.state.blobAt (.idp "okta") = some newIdpBlob ∧
        C₁.state.mfa.get? ("u1", "totp") = some factor ∧
        ∃ C₂ ∈ (sweeps vaultService oldKek .inMemory).run [.spawn (),
          .step 1 (vaultInput 1), .step 1 (vaultInput 1),
          .step 1 (vaultInput 65), .step 1 (vaultInput 1)] C₁,
            C₂.state.blobAt (.mfa "u1" "totp") = some newMfaBlob := by
    decide +kernel
  obtain ⟨C₁, h₁, hidp, hfactor, C₂, h₂, hblob⟩ := heval
  obtain ⟨-, hmfa⟩ := sweeps_resumable aesIdeal rfl (by decide) h₁ h₂
  obtain ⟨r, hr, hsame, hretains⟩ := hmfa.exists_of_get? hfactor
  refine ⟨C₁, C₂, h₁, h₂, hidp, hblob, r, hr, ?_, hretains.readable _ ?_⟩
  · rw [hsame]
    rfl
  · decide +kernel

end FusionIdentity
