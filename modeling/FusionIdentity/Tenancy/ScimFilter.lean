import FusionIdentity.Tenancy.Members

/-!
# Filters of the SCIM lists

`list_users` and `list_groups` read a filter with one regular expression, which need not match to
the end of the string. The lists are given by what the store has answered with; `requireScimTenant`
comes before.
-/

namespace FusionIdentity

open Foundation

/-- The characters that `\w` matches. -/
structure WordClass where
  isWord : Char → Bool
  not_isSpace : ∀ c, isWord c = true → isSpace c = false

/-- `str(r.get(attr, ""))` of a resource, where `str` is that of values that are no strings. -/
def ScimUser.text (str : Json → String) (u : ScimUser) : String → String
  | "id" => u.id
  | "userName" => u.userName
  | "displayName" => u.displayName.asString.getD (str u.displayName)
  | "active" => if u.active then "True" else "False"
  | "tenant_id" => u.tenantId
  | _ => ""

structure ScimGroup where
  id : String
  displayName : String
  members : List String

/-- The text of the members is the `repr` of a list of dictionaries. -/
def ScimGroup.text (repr : List String → String) (g : ScimGroup) : String → String
  | "id" => g.id
  | "displayName" => g.displayName
  | "members" => repr g.members
  | _ => ""

/-- The groups of a tenant: the roles that one of its members has. -/
def scimGroups (tenantId : String) (members : List (String × String)) : List ScimGroup :=
  (["tenant_admin", "operator", "member", "viewer"].map fun role ↦
    ⟨tenantId ++ ":" ++ role, tenantId ++ " " ++ role,
      (members.filter (·.2 = role)).map (·.1)⟩).filter (·.members ≠ [])

structure ListQuery where
  startIndex : ℕ := 1
  count : ℕ := 100
  filter : Option String := none
  sortBy : Option String := none

structure ListResponse (ρ : Type) where
  totalResults : ℕ
  startIndex : ℕ
  itemsPerPage : ℕ
  resources : List ρ

def ListQuery.page {ρ : Type} (q : ListQuery) (found : List ρ) : ListResponse ρ :=
  let page := (found.drop (q.startIndex - 1)).take q.count
  ⟨found.length, q.startIndex, page.length, page⟩

def ListQuery.sort (str : Json → String) (q : ListQuery) (found : List ScimUser) : List ScimUser :=
  match q.sortBy.filter (· ≠ "") with
  | none => found
  | some key => found.mergeSort fun u v ↦ u.text str key ≤ v.text str key

namespace WordClass

variable (W : WordClass) {ρ : Type}

/-- `re.match` of `(\w+)\s+eq\s+"?([^"]+)"?`, its two groups. Only the last run of blanks is ever
given back: where no value can follow it, its last blank is the value. -/
def scimMatch (cs : List Char) : Option (List Char × List Char) :=
  let attr := cs.takeWhile W.isWord
  let rest := cs.dropWhile W.isWord
  let eq := rest.dropWhile isSpace
  let blanks := (eq.drop 2).takeWhile isSpace
  let body := (eq.drop 2).dropWhile isSpace
  let val := (if body.head? = some '"' then body.tail else body).takeWhile (· ≠ '"')
  if attr = [] ∨ rest.takeWhile isSpace = [] ∨ eq.take 2 ≠ ['e', 'q'] ∨ blanks = [] then none
  else if val ≠ [] then some (attr, val)
  else if 2 ≤ blanks.length then some (attr, blanks.drop (blanks.length - 1))
  else none

/-- `_apply_scim_filter` of a string that is not empty. -/
def scimFilter (text : ρ → String → String) (resources : List ρ) (f : String) :
    Except Exn (List ρ) :=
  match W.scimMatch (strip f).toList with
  | none => .error (.http 400 "unsupported SCIM filter (only `attr eq \"val\"` is supported)")
  | some (attr, val) => .ok (resources.filter (text · (.ofList attr) = .ofList val))

/-- `_apply_scim_filter`. -/
def applyScimFilter (text : ρ → String → String) (resources : List ρ) (filter : Option String) :
    Except Exn (List ρ) :=
  match filter.filter (· ≠ "") with
  | none => .ok resources
  | some f => W.scimFilter text resources f

/-- `list_users`, for the users of the members. -/
def listUsers (str : Json → String) (tenantId : String) (rows : List UserRow) (q : ListQuery) :
    Except Exn (ListResponse ScimUser) :=
  (W.applyScimFilter (ScimUser.text str) (rows.map (scimUserView tenantId)) q.filter).map
    (q.page ∘ q.sort str)

/-- `list_groups`, for the ids and roles of the members. -/
def listGroups (repr : List String → String) (tenantId : String) (members : List (String × String))
    (q : ListQuery) : Except Exn (ListResponse ScimGroup) :=
  (W.applyScimFilter (ScimGroup.text repr) (scimGroups tenantId members) q.filter).map q.page

/-- The filter is one comparison, `attr eq "val"` or `attr eq val`, where a value without quotes has
no blanks. -/
def Comparison (f : String) (attr val : List Char) : Prop :=
  attr ≠ [] ∧ (∀ c ∈ attr, W.isWord c = true) ∧ val ≠ [] ∧ '"' ∉ val ∧
    ∃ b b' value, b ≠ [] ∧ b' ≠ [] ∧ (∀ c ∈ b ++ b', isSpace c = true) ∧
      (strip f).toList = attr ++ b ++ 'e' :: 'q' :: b' ++ value ∧
      (value = '"' :: val ++ ['"'] ∨ value = val ∧ ∀ c ∈ val, isSpace c = false)

/-- The answer is 400, or lists exactly the resources that meet the comparison which the filter is.
-/
def Exact (f : String) (text : ρ → String → String) (resources : List ρ)
    (listing : List ρ → ListResponse ρ) (answer : Except Exn (ListResponse ρ)) : Prop :=
  (∃ detail, answer = .error (.http 400 detail)) ∨ ∃ attr val, W.Comparison f attr val ∧
    answer = .ok (listing (resources.filter (text · (.ofList attr) = .ofList val)))

theorem while_append {p : Char → Bool} {l : List Char} (hl : ∀ c ∈ l, p c = true) (r : List Char)
    (hr : ∀ c ∈ r.head?, p c = false) :
    (l ++ r).takeWhile p = l ∧ (l ++ r).dropWhile p = r := by
  rw [List.takeWhile_append_of_pos hl, List.dropWhile_append_of_pos hl]
  cases r with
  | nil => simp
  | cons c r => simp [hr c rfl]

variable {W} {f : String} {attr val : List Char}

/-- The regular expression reads a comparison as what it is. -/
theorem Comparison.scimMatch (h : W.Comparison f attr val) :
    W.scimMatch (strip f).toList = some (attr, val) := by
  obtain ⟨hattr, hword, hval, hquote, b, b', value, hb, hb', hspace, hf, hvalue⟩ := h
  have hplain : ∀ c ∈ val, decide (c ≠ '"') = true := fun c hc ↦
    decide_eq_true (ne_of_mem_of_not_mem hc hquote)
  have hread : (∀ c ∈ value.head?, isSpace c = false) ∧
      (if value.head? = some '"' then value.tail else value).takeWhile (· ≠ '"') = val := by
    rcases hvalue with rfl | ⟨rfl, hblank⟩
    · exact ⟨by rintro c ⟨⟩; rfl, (while_append hplain ['"'] (by simp)).1⟩
    · refine ⟨fun c hc ↦ hblank c (List.mem_of_mem_head? hc), ?_⟩
      have hhead : value.head? ≠ some '"' := fun h ↦ hquote (List.mem_of_mem_head? h)
      rw [if_neg hhead]
      simpa using (while_append hplain [] nofun).1
  obtain ⟨c, cs, rfl⟩ := List.exists_cons_of_ne_nil hb
  have hc : W.isWord c = false := by
    by_contra hnot
    have hnone := W.not_isSpace c (Bool.eq_true_of_not_eq_false hnot)
    rw [hspace c List.mem_cons_self] at hnone
    cases hnone
  rw [List.append_assoc, List.append_assoc] at hf
  obtain ⟨hattr', hrest⟩ :=
    while_append hword (c :: cs ++ ('e' :: 'q' :: b' ++ value)) (by simp [hc])
  obtain ⟨hb₁, heq⟩ := while_append (fun a ha ↦ hspace a (List.mem_append_left b' ha))
    ('e' :: 'q' :: b' ++ value) (by rintro a ⟨⟩; rfl)
  obtain ⟨hb₂, hbody⟩ := while_append (fun a ha ↦ hspace a (List.mem_append_right _ ha))
    value hread.1
  have hdrop : ('e' :: 'q' :: b' ++ value).drop 2 = b' ++ value := rfl
  rw [WordClass.scimMatch, hf, hattr', hrest, hb₁, heq, hdrop, hb₂, hbody, hread.2,
    if_neg (by simp [hattr, hb']), if_pos hval]

theorem applyScimFilter_of_ne (hf : f ≠ "") (text : ρ → String → String) (resources : List ρ) :
    W.applyScimFilter text resources (some f) = W.scimFilter text resources f := by
  rw [applyScimFilter, Option.filter_some, if_pos (decide_eq_true hf)]

theorem exact_scimFilter
    (h : (W.scimMatch (strip f).toList).isSome → ∃ attr val, W.Comparison f attr val)
    (text : ρ → String → String) (resources : List ρ) (listing : List ρ → ListResponse ρ) :
    W.Exact f text resources listing ((W.scimFilter text resources f).map listing) := by
  rw [scimFilter]
  rcases hm : W.scimMatch (strip f).toList with _ | m
  · exact .inl ⟨_, rfl⟩
  · obtain ⟨attr, val, hc⟩ := h (hm ▸ rfl)
    obtain rfl := Option.some.inj (hm.symm.trans hc.scimMatch)
    exact .inr ⟨attr, val, hc, rfl⟩

end WordClass

/-- **A filter is applied exactly or refused**, in both lists, exactly if it is not empty and the
regular expression matches it only if it is a single comparison. -/
theorem scim_filter_exact_iff (W : WordClass) (str : Json → String) (repr : List String → String)
    (f : String) :
    (∀ tenantId (q : ListQuery), q.filter = some f →
      (∀ rows, W.Exact f (ScimUser.text str) (rows.map (scimUserView tenantId))
        (q.page ∘ q.sort str) (W.listUsers str tenantId rows q)) ∧
      ∀ members, W.Exact f (ScimGroup.text repr) (scimGroups tenantId members) q.page
        (W.listGroups repr tenantId members q)) ↔
    f ≠ "" ∧ ((W.scimMatch (strip f).toList).isSome → ∃ attr val, W.Comparison f attr val) := by
  constructor
  · intro h
    -- what is not refused has to be a comparison, even where there is nothing to list
    have hcomparison {answer : ListResponse ScimUser}
        (ha : W.listUsers str "" [] { filter := some f } = .ok answer) :
        ∃ attr val, W.Comparison f attr val := by
      rcases (h "" { filter := some f } rfl).1 [] with ⟨detail, herr⟩ | ⟨attr, val, hc, -⟩
      · cases ha.symm.trans herr
      · exact ⟨attr, val, hc⟩
    have hf : f ≠ "" := by
      rintro rfl
      obtain ⟨attr, val, hattr, -, -, -, b, b', value, -, -, -, hempty, -⟩ := hcomparison rfl
      simp [strip, hattr] at hempty
    refine ⟨hf, fun hm ↦ ?_⟩
    obtain ⟨m, hm⟩ := Option.isSome_iff_exists.mp hm
    have hlisted : W.listUsers str "" [] { filter := some f } =
        .ok (({ filter := some f } : ListQuery).page []) := by
      rw [WordClass.listUsers, WordClass.applyScimFilter_of_ne hf, WordClass.scimFilter, hm]
      rfl
    exact hcomparison hlisted
  · rintro ⟨hf, h⟩ tenantId q hq
    refine ⟨fun rows ↦ ?_, fun members ↦ ?_⟩
    · rw [WordClass.listUsers, hq, WordClass.applyScimFilter_of_ne hf]
      exact WordClass.exact_scimFilter h ..
    · rw [WordClass.listGroups, hq, WordClass.applyScimFilter_of_ne hf]
      exact WordClass.exact_scimFilter h ..

namespace Sample

def asciiWords : WordClass where
  isWord c := !isSpace c && (c.isAlphanum || c = '_')
  not_isSpace c hc := by simpa using (Bool.and_eq_true_iff.mp hc).1

end Sample

open Sample in
/-- What follows the first comparison is not read. -/
theorem scim_filter_ignores_rest :
    (asciiWords.listUsers (Json.dumps false) "acme" [⟨user, {}⟩]
        { filter := some "userName eq \"ann\" and active eq \"False\"" }).toOption.map
      (·.resources.map fun u ↦ (u.userName, u.active)) = some [("ann", true)] := by
  decide +kernel

end FusionIdentity
