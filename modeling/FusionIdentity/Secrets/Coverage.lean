import FusionIdentity.Secrets.Sweep

/-!
# What a complete sweep leaves behind

A sweep that runs to its end with nothing else going on. What it passes over (a missing or empty
secret, a blob that the previous key does not open) is nothing that would have to move.

What it never lists stays under the previous key: the app credentials, and in Postgres the providers
of other tenants when the request is not made for `_system`. `sweep_covers_iff` says that these are
the only gaps.
-/

namespace FusionIdentity

open Foundation Foundation.Prog

variable {S : VaultService} {prev : String} (b : VaultBackend) (env : ℕ → VaultInput)

/-- The calls of a handler that runs alone, with the contributions of the environment in order. -/
def VaultBackend.alone : Interp vaultSig (Vault × ℕ) :=
  fun c s ↦ ((b.exec c (env s.2) s.1).1, (b.exec c (env s.2) s.1).2, s.2 + 1)

theorem run_callVault (c : VaultCall) (v : Vault) (n : ℕ) : (callVault c).run (b.alone env) (v, n) =
      ((b.exec c (env n) v).1, (b.exec c (env n) v).2, n + 1) := by
  rw [callVault, run_perform]
  rfl

/-! ## One record -/

variable (S prev) in
/-- Whatever the ciphertext reads as, the new one reads as under the current key. -/
def Arrived (old new : String) : Prop :=
  ∀ plain, S.Reads prev old plain → decryptWith S.aes new S.kek = .ok plain

theorem VaultService.Reads.ne_empty {blob plain : String} (h : S.Reads prev blob plain) :
    blob ≠ "" := by
  have hempty (kek : String) : decryptWith S.aes "" kek =
      .error (.crypto "truncated ciphertext blob") :=
    rfl
  rintro rfl
  rcases h with h | h
  · cases (hempty _).symm.trans h
  · cases (hempty _).symm.trans h

theorem run_reencrypt (hX : S.aes.Ideal S.kek prev) (blob : String) (v : Vault) (n : ℕ) :
    ∃ o n', (S.reencrypt prev blob).run (b.alone env) (v, n) = (.ok o, v, n') ∧
      Arrived S prev blob (o.getD blob) := by
  rw [VaultService.reencrypt]
  split
  · rename_i plain hplain
    have hopen := decryptSecret_none_eq_ok.mp hplain
    refine ⟨_, _, rfl, ?_⟩
    intro p hp
    obtain rfl : p = plain := VaultService.Reads.unique hX hp (.inr hopen)
    exact hX.decryptWith_encryptSecret p _
  · rename_i message hfail
    refine ⟨none, n, rfl, ?_⟩
    rintro p (hp | hp)
    · exact hp
    · rw [decryptSecret_none_eq_ok.mpr hp] at hfail
      cases hfail
  · rename_i hfail
    obtain ⟨message, hmessage⟩ := decryptSecret_error hfail
    cases hmessage

/-! ## The loops -/

def Vault.SameAt (v v' : Vault) : Place → Prop
  | .idp idpId => v'.idps.get? idpId = v.idps.get? idpId
  | .mfa userId method => v'.mfa.get? (userId, method) = v.mfa.get? (userId, method)
  | .appCredential appId name =>
    v'.appCredentials.get? (appId, name) = v.appCredentials.get? (appId, name)

namespace Vault.SameAt

variable {v v' v'' : Vault} {place : Place}

theorem refl (v : Vault) (place : Place) : v.SameAt v place := by
  cases place <;> rfl

theorem trans (h : v.SameAt v' place) (h' : v'.SameAt v'' place) : v.SameAt v'' place := by
  cases place <;> exact Eq.trans h' h

theorem blobAt (h : v.SameAt v' place) : v'.blobAt place = v.blobAt place := by
  cases place <;> rw [Vault.blobAt, h, Vault.blobAt]

end Vault.SameAt

variable (S prev) in
/-- The secret at a place has arrived, if there is one. -/
def Vault.ArrivedAt (v v' : Vault) (place : Place) : Prop :=
  ∀ old, v.blobAt place = some old → ∃ new, v'.blobAt place = some new ∧ Arrived S prev old new

theorem run_sweepLoop {ρ : Type} {loop : List ρ → SweepReport → VaultHandler SweepReport}
    (place : ρ → Place) (Listed : Vault → ρ → Prop) (hnil : ∀ count, loop [] count = pure count)
    (hturn : ∀ {v r}, Listed v r → ∀ rest count n, ∃ count' v' n',
      (loop (r :: rest) count).run (b.alone env) (v, n) =
        (loop rest count').run (b.alone env) (v', n') ∧
      (∀ p ≠ place r, v.SameAt v' p) ∧ v.ArrivedAt S prev v' (place r))
    (hlisted : ∀ {v v' r}, v.SameAt v' (place r) → Listed v r → Listed v' r)
    {l : List ρ} {v : Vault} (hl : ∀ r ∈ l, Listed v r) (hnodup : (l.map place).Nodup)
    (count : SweepReport) (n : ℕ) :
    ∃ count' v' n', (loop l count).run (b.alone env) (v, n) = (.ok count', v', n') ∧
      (∀ p ∉ l.map place, v.SameAt v' p) ∧ ∀ r ∈ l, v.ArrivedAt S prev v' (place r) := by
  induction l generalizing v count n with
  | nil => exact ⟨count, v, n, by rw [hnil]; rfl, fun p _ ↦ .refl v p, nofun⟩
  | cons r rest ih =>
    obtain ⟨hfresh, hnodup⟩ := List.nodup_cons.mp hnodup
    obtain ⟨count₁, v₁, n₁, hrun₁, hothers, harrived⟩ :=
      hturn (hl r List.mem_cons_self) rest count n
    have hother {r' : ρ} (hr' : r' ∈ rest) : v.SameAt v₁ (place r') := by
      refine hothers _ fun heq ↦ hfresh ?_
      exact List.mem_map.mpr ⟨r', hr', heq⟩
    obtain ⟨count', v', n', hrun, hsame, hdone⟩ :=
      ih (fun r' hr' ↦ hlisted (hother hr') (hl r' (List.mem_cons_of_mem _ hr'))) hnodup count₁ n₁
    refine ⟨count', v', n', hrun₁.trans hrun, ?_, ?_⟩
    · intro p hp
      rw [List.map_cons, List.mem_cons, not_or] at hp
      exact (hothers p hp.1).trans (hsame p hp.2)
    · intro r' hr' old hold
      rcases List.mem_cons.mp hr' with rfl | hr'
      · obtain ⟨new, hnew, hread⟩ := harrived old hold
        exact ⟨new, (hsame _ hfresh).blobAt.trans hnew, hread⟩
      · exact hdone r' hr' old ((hother hr').blobAt.trans hold)

theorem run_sweepIdps_cons (hX : S.aes.Ideal S.kek prev) {v : Vault} {r : Idp}
    (hr : v.idps.get? r.idpId = some r ∧ b.sees r = true) (rest : List Idp) (count : SweepReport)
    (n : ℕ) : ∃ count' v' n', (S.sweepIdps prev (r :: rest) count).run (b.alone env) (v, n) =
        (S.sweepIdps prev rest count').run (b.alone env) (v', n') ∧
      (∀ p ≠ .idp r.idpId, v.SameAt v' p) ∧ v.ArrivedAt S prev v' (.idp r.idpId) := by
  obtain ⟨hr, hsees⟩ := hr
  have hsecret {old : String} (hold : v.blobAt (.idp r.idpId) = some old) :
      r.clientSecretEnc = some old := by
    rwa [Vault.blobAt, hr] at hold
  rw [VaultService.sweepIdps]
  split
  · rename_i hnone
    refine ⟨_, v, n, rfl, fun p _ ↦ .refl v p, fun old hold ↦ ⟨old, hold, fun plain hplain ↦ ?_⟩⟩
    rw [hsecret hold] at hnone
    exact absurd (by simpa using hnone) hplain.ne_empty
  rename_i blob hblob
  have hblob : r.clientSecretEnc = some blob := (Option.filter_eq_some_iff.mp hblob).1
  have hold {old : String} (hold : v.blobAt (.idp r.idpId) = some old) : blob = old :=
    Option.some.inj (hblob.symm.trans (hsecret hold))
  obtain ⟨o, n₁, hrun, harrived⟩ := run_reencrypt b env hX blob v n
  rw [run_bind_ok hrun]
  cases o with
  | none => exact ⟨_, v, n₁, rfl, fun p _ ↦ .refl v p, fun old h ↦ ⟨old, h, hold h ▸ harrived⟩⟩
  | some new =>
    have hupdate : v.updateIdp b r.idpId { clientSecretEnc := some new } =
        (some (IdpFields.write { clientSecretEnc := some new } r),
          v.writeIdp r.idpId { clientSecretEnc := some new }) := by
      rw [Vault.updateIdp, hr, Option.filter_some, if_pos hsees]
    have hcall : (callVault (.updateIdp r.idpId { clientSecretEnc := some new })).run (b.alone env)
        (v, n₁) = (.ok (some (IdpFields.write { clientSecretEnc := some new } r)),
          v.writeIdp r.idpId { clientSecretEnc := some new }, n₁ + 1) := by
      rw [run_callVault]
      simp only [VaultBackend.exec, hupdate]
    dsimp only
    rw [run_bind_ok hcall]
    refine ⟨_, _, _, rfl, ?_, fun old h ↦ ⟨new, ?_, hold h ▸ harrived⟩⟩
    · rintro (id | _ | _) hp
      · exact (Vault.get?_writeIdp _ _ id).trans (if_neg fun hid ↦ hp (congrArg _ hid))
      · rfl
      · rfl
    · rw [Vault.blobAt, Vault.get?_writeIdp, if_pos rfl, hr, Option.map_some,
        Vault.write_clientSecretEnc]
      rfl

theorem run_sweepMfa_cons (hX : S.aes.Ideal S.kek prev) {v : Vault} {r : MfaRecord}
    (hr : v.mfa.get? (r.userId, r.method) = some r) (rest : List MfaRecord) (count : SweepReport)
    (n : ℕ) : ∃ count' v' n', (S.sweepMfa prev (r :: rest) count).run (b.alone env) (v, n) =
        (S.sweepMfa prev rest count').run (b.alone env) (v', n') ∧
      (∀ p ≠ .mfa r.userId r.method, v.SameAt v' p) ∧
      v.ArrivedAt S prev v' (.mfa r.userId r.method) := by
  have hold {old : String} (hold : v.blobAt (.mfa r.userId r.method) = some old) :
      r.secretEnc = old := by
    rw [Vault.blobAt, hr] at hold
    exact Option.some.inj hold
  rw [VaultService.sweepMfa]
  split
  · rename_i hempty
    refine ⟨_, v, n, rfl, fun p _ ↦ .refl v p, fun old h ↦ ⟨old, h, fun plain hplain ↦ ?_⟩⟩
    exact absurd ((hold h).symm.trans hempty) hplain.ne_empty
  obtain ⟨o, n₁, hrun, harrived⟩ := run_reencrypt b env hX r.secretEnc v n
  rw [run_bind_ok hrun]
  cases o with
  | none => exact ⟨_, v, n₁, rfl, fun p _ ↦ .refl v p, fun old h ↦ ⟨old, h, hold h ▸ harrived⟩⟩
  | some new =>
    have hcall := run_callVault b env (.upsertMfa r.userId r.method new r.enabled) v n₁
    dsimp only
    rw [run_bind_ok hcall]
    refine ⟨_, _, _, rfl, ?_, fun old h ↦ ⟨new, ?_, hold h ▸ harrived⟩⟩
    · rintro (_ | ⟨userId, method⟩ | _) hp
      · rfl
      · refine (Vault.get?_setMfa _ _).trans (if_neg fun hkey ↦ hp ?_)
        obtain ⟨rfl, rfl⟩ := Prod.mk.inj hkey
        rfl
      · rfl
    · exact congrArg (Option.map (·.secretEnc)) ((Vault.get?_setMfa _ _).trans (if_pos rfl))

/-! ## The lists -/

namespace Vault

variable {b} {v : Vault}

theorem nodup_places {κ ρ : Type} [DecidableEq κ] {d : Dict κ ρ} {key : ρ → κ} (place : κ → Place)
    (hkeyed : ∀ {k r}, d.get? k = some r → key r = k) (hplace : place.Injective) (p : ρ → Bool) :
    ((d.values.filter p).map fun r ↦ place (key r)).Nodup := by
  have hkeys : d.values.map (fun r ↦ place (key r)) = d.keys.map place := by
    rw [Dict.values, Dict.keys, List.map_map, List.map_map]
    refine List.map_congr_left fun e he ↦ ?_
    exact congrArg place (hkeyed (Dict.get?_eq_some_iff.mpr he))
  have hnodup : (d.values.map fun r ↦ place (key r)).Nodup := hkeys ▸ d.nodup.map hplace
  exact hnodup.sublist (List.filter_sublist.map _)

theorem nodup_listAllIdps : ((v.listAllIdps b).map fun r ↦ Place.idp r.idpId).Nodup := by
  have hnodup := nodup_places Place.idp v.idpsKeyed (fun _ _ h ↦ Place.idp.inj h)
  cases b with
  | inMemory => exact hnodup _
  | postgres tenant => exact ((List.mergeSort_perm _ _).map _).nodup_iff.mpr (hnodup _)

theorem nodup_listAllMfa : ((v.listAllMfa b).map fun r ↦ Place.mfa r.userId r.method).Nodup := by
  have hnodup := nodup_places (fun k ↦ Place.mfa k.1 k.2) v.mfaKeyed
    (fun _ _ h ↦ Prod.ext_iff.mpr (Place.mfa.inj h))
  cases b with
  | inMemory => exact hnodup _
  | postgres tenant =>
    refine ((List.mergeSort_perm _ _).map _).nodup_iff.mpr ?_
    simpa using hnodup fun _ ↦ true

theorem mem_listAllIdps_of_reads {r : Idp} {blob plain : String} (hr : v.idps.get? r.idpId = some r)
    (hsees : b.sees r = true) (hblob : r.clientSecretEnc = some blob)
    (hread : S.Reads prev blob plain) : r ∈ v.listAllIdps b := by
  have hmem : r ∈ v.idps.values := Dict.mem_values_iff.mpr ⟨_, hr⟩
  cases b with
  | inMemory => exact List.mem_filter.mpr ⟨hmem, by simp [hblob, hread.ne_empty]⟩
  | postgres tenant =>
    exact List.mem_mergeSort.mpr (List.mem_filter.mpr ⟨hmem, by simp [hsees, hblob]⟩)

theorem mem_listAllMfa_of_reads {r : MfaRecord} {plain : String}
    (hr : v.mfa.get? (r.userId, r.method) = some r) (hread : S.Reads prev r.secretEnc plain) :
    r ∈ v.listAllMfa b := by
  have hmem : r ∈ v.mfa.values := Dict.mem_values_iff.mpr ⟨_, hr⟩
  cases b with
  | inMemory => exact List.mem_filter.mpr ⟨hmem, by simp [hread.ne_empty]⟩
  | postgres tenant => exact List.mem_mergeSort.mpr hmem

end Vault

/-! ## The whole sweep -/

/-- The places a sweep does not come to: the app credentials, and the providers it may not see. -/
def Place.unswept (b : VaultBackend) (v : Vault) : Place → Bool
  | .idp idpId => (v.idps.get? idpId).any fun r ↦ !b.sees r
  | .mfa _ _ => false
  | .appCredential _ _ => true

/-- What the sweep does: it returns, everything it comes to arrives, and the rest is as it was. -/
theorem run_kekReencrypt (hX : S.aes.Ideal S.kek prev) (hprev : S.kekPrev = some prev)
    (hne : prev ≠ "") (v : Vault) (n : ℕ) :
    ∃ count v' n', S.kekReencrypt.run (b.alone env) (v, n) = (.ok count, v', n') ∧
      ∀ place blob, v.blobAt place = some blob →
        if place.unswept b v then v'.blobAt place = some blob
        else ∀ plain, S.Reads prev blob plain →
          ∃ blob', v'.blobAt place = some blob' ∧ decryptWith S.aes blob' S.kek = .ok plain := by
  have hfilter : S.kekPrev.filter (· ≠ "") = some prev := by
    simp [hprev, hne]
  obtain ⟨count₁, v₁, n₁, hrun₁, hsame₁, hdone₁⟩ := run_sweepLoop b env
    (fun r : Idp ↦ .idp r.idpId) (fun v r ↦ v.idps.get? r.idpId = some r ∧ b.sees r = true)
    (fun _ ↦ rfl) (run_sweepIdps_cons b env hX) (fun hsame hr ↦ ⟨Eq.trans hsame hr.1, hr.2⟩)
    (fun r hr ↦ Vault.mem_listAllIdps hr) (Vault.nodup_listAllIdps (v := v)) {} (n + 1)
  obtain ⟨count₂, v₂, n₂, hrun₂, hsame₂, hdone₂⟩ := run_sweepLoop b env
    (fun r : MfaRecord ↦ .mfa r.userId r.method)
    (fun v r ↦ v.mfa.get? (r.userId, r.method) = some r)
    (fun _ ↦ rfl) (run_sweepMfa_cons b env hX) (fun hsame ↦ Eq.trans hsame)
    (fun r hr ↦ Vault.mem_listAllMfa hr) (Vault.nodup_listAllMfa (v := v₁)) count₁ (n₁ + 1)
  refine ⟨count₂, v₂, n₂, ?_, ?_⟩
  · rw [VaultService.kekReencrypt, hfilter]
    dsimp only
    have hidps : (callVault .listAllIdps).run (b.alone env) (v, n) =
        (.ok (v.listAllIdps b), v, n + 1) := run_callVault b env .listAllIdps v n
    have hfactors : (callVault .listAllMfa).run (b.alone env) (v₁, n₁) =
        (.ok (v₁.listAllMfa b), v₁, n₁ + 1) := run_callVault b env .listAllMfa v₁ n₁
    rw [run_bind_ok hidps, run_bind_ok hrun₁, run_bind_ok hfactors]
    exact hrun₂
  rintro (id | ⟨userId, method⟩ | ⟨appId, name⟩) blob hblob
  · obtain ⟨r, hr, hsecret⟩ := Option.bind_eq_some_iff.mp hblob
    obtain rfl := v.idpsKeyed hr
    rw [Place.unswept, hr, Option.any_some, (hsame₂ _ (by simp)).blobAt]
    split
    · rename_i hhidden
      -- the provider is not in the list, so the loop does not touch it
      refine (hsame₁ _ fun hmem ↦ ?_).blobAt.trans hblob
      obtain ⟨r', hr', hid⟩ := List.mem_map.mp hmem
      obtain ⟨hget, hsees⟩ := Vault.mem_listAllIdps hr'
      rw [Place.idp.inj hid, hr] at hget
      obtain rfl := Option.some.inj hget
      simp [hsees] at hhidden
    · rename_i hseen
      intro plain hplain
      obtain ⟨new, hnew, harrived⟩ := hdone₁ r (Vault.mem_listAllIdps_of_reads hr
        (by simpa using hseen) hsecret hplain) blob hblob
      exact ⟨new, hnew, harrived plain hplain⟩
  · obtain ⟨r, hr, rfl⟩ := Option.map_eq_some_iff.mp hblob
    obtain ⟨rfl, rfl⟩ := Prod.mk.inj (v.mfaKeyed hr)
    rw [Place.unswept, if_neg (by decide)]
    intro plain hplain
    have hsame := hsame₁ (.mfa r.userId r.method) (by simp)
    obtain ⟨new, hnew, harrived⟩ := hdone₂ r
      (Vault.mem_listAllMfa_of_reads (Eq.trans hsame hr) hplain) _ (hsame.blobAt.trans hblob)
    exact ⟨new, hnew, harrived plain hplain⟩
  · rw [Place.unswept, if_pos rfl, (hsame₂ _ (by simp)).blobAt, (hsame₁ _ (by simp)).blobAt]
    exact hblob

variable (S prev) in
/-- The secret at this place is under the previous key alone. -/
def Vault.Behind (v : Vault) (place : Place) : Prop :=
  ∃ blob plain, v.blobAt place = some blob ∧ decryptWith S.aes blob prev = .ok plain ∧
    ∀ p, decryptWith S.aes blob S.kek ≠ .ok p

/-- **What the sweep covers.** The sweep returns, and after it every secret that one of the keys
could read is readable, as the same plaintext, with the current key alone: if and only if, before
the sweep, no app credential and no provider outside the scope of the request was under the previous
key. -/
theorem sweep_covers_iff (hX : S.aes.Ideal S.kek prev) (hprev : S.kekPrev = some prev)
    (hne : prev ≠ "") (v : Vault) (n : ℕ) :
    ∃ count v' n', S.kekReencrypt.run (b.alone env) (v, n) = (.ok count, v', n') ∧
      ((∀ place blob plain, v.blobAt place = some blob → S.Reads prev blob plain →
        ∃ blob', v'.blobAt place = some blob' ∧ decryptWith S.aes blob' S.kek = .ok plain) ↔
      ∀ place, place.unswept b v → ¬v.Behind S prev place) := by
  obtain ⟨count, v', n', hrun, hplaces⟩ := run_kekReencrypt b env hX hprev hne v n
  refine ⟨count, v', n', hrun, ?_, ?_⟩
  · rintro hall place hout ⟨blob, plain, hblob, hopen, hshut⟩
    obtain ⟨blob', hblob', hread⟩ := hall place blob plain hblob (.inr hopen)
    have hsame := hplaces place blob hblob
    rw [if_pos hout, hblob'] at hsame
    obtain rfl := Option.some.inj hsame
    exact hshut plain hread
  · intro hnone place blob plain hblob hread
    have hplace := hplaces place blob hblob
    split at hplace
    · rename_i hout
      refine ⟨blob, hplace, ?_⟩
      rcases hread with hread | hopen
      · exact hread
      -- it opens under the previous key and is not behind, so the current key opens it as well
      · by_contra hshut
        refine hnone place hout ⟨blob, plain, hblob, hopen, fun p hp ↦ hshut ?_⟩
        rw [hp, VaultService.Reads.unique hX (.inl hp) (.inr hopen)]
    · exact hplace plain hread

namespace Sample

def sweepEnv (n : ℕ) : VaultInput := vaultInput (if n = 1 then 49 else 65)

def vaultWithoutApps : Vault := { vault with appCredentials := ∅ }

end Sample

open Sample in
/-- With no app credentials the sweep covers everything, such as the secret of the provider. -/
theorem sweep_covers_iff_without_apps : ∃ count v' n', vaultService.kekReencrypt.run
        (VaultBackend.inMemory.alone sweepEnv) (vaultWithoutApps, 0) =
          (.ok count, v', n') ∧ ∃ blob, v'.blobAt (.idp "okta") = some blob ∧
        decryptWith vaultService.aes blob newKek = .ok "oidc client secret" := by
  obtain ⟨count, v', n', hrun, hiff⟩ := sweep_covers_iff .inMemory sweepEnv aesIdeal rfl
    (by decide) vaultWithoutApps 0
  have hcovers := hiff.mpr fun place hout ↦ by
    rintro ⟨blob, plain, hblob, -⟩
    cases place with
    | idp idpId =>
      obtain ⟨r, hr, hhidden⟩ := (Option.any_eq_true _ _).mp hout
      cases hhidden
    | mfa userId method => cases hout
    | appCredential appId name => cases hblob
  refine ⟨count, v', n', hrun, hcovers _ oldIdpBlob _ (by decide +kernel) (.inr ?_)⟩
  decide +kernel

open Sample in
/-- The sweep ends and reports no failure, and the app credential, which was readable with both
keys, is still under the previous key: without that key it is not readable any more. -/
theorem sweep_misses_app_credential :
    let r := vaultService.kekReencrypt.run (VaultBackend.inMemory.alone sweepEnv)
      (vault, 0)
    let blobBefore := vault.blobAt (.appCredential "tryon" "vton")
    let blobAfter := r.2.1.blobAt (.appCredential "tryon" "vton")
    r.1 = .ok { idpTotal := 1, idpMigrated := 1, mfaTotal := 1, mfaMigrated := 1 } ∧
      blobBefore.map (decryptSecret vaultService.aes · newKek (some oldKek)) =
        some (.ok "sk-live-42") ∧
      blobAfter.map (decryptSecret vaultService.aes · newKek none) =
        some (.error (.crypto "ciphertext authentication failed")) := by
  decide +kernel

end FusionIdentity
