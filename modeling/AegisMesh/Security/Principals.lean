import AegisMesh.Security.Interceptor

/-!
# Principals from text (`pkg/security/auth.go`)

Entries are `role=token` and `role:service+service=token`, with commas or semicolons between them.
-/

open Lib

namespace AegisMesh.Security

open Telemetry

/-! ## The parser -/

def Role.ofName (name : String) : Role :=
  if name = "" then .unset
  else if name = "admin" then .admin
  else if name = "registry" then .registry
  else if name = "telemetry" then .telemetry
  else if name = "policy" then .policy
  else if name = "reader" then .reader
  else if name = "sdk" then .sdk
  else .other name

def Role.name : Role → String
  | .unset => ""
  | .admin => "admin"
  | .registry => "registry"
  | .telemetry => "telemetry"
  | .policy => "policy"
  | .reader => "reader"
  | .sdk => "sdk"
  | .other name => name

def knownRole : Role → Bool
  | .admin | .registry | .telemetry | .policy | .reader | .sdk => true
  | .unset | .other _ => false

inductive PrincipalError
  | missingEquals (item : String)
  | missingRole
  | unsupportedRole (role : Role)
  | emptyScope (role : Role)
  | duplicateScope (service : String)
  | missingToken (item : String)
  | identity (err : String)
  | adminScoped
  | duplicatePrincipal
  | scopedToken (role : Role)
deriving DecidableEq, Repr

/-- `err.Error()`, where `quote` writes a string as the verb `%q` does. -/
def PrincipalError.text (quote : String → String) : PrincipalError → String
  | .missingEquals item => "auth principal entry " ++ quote item ++ " must use role[:service+service]=subject"
  | .missingRole => "auth token entry must include a role"
  | .unsupportedRole role => "unsupported auth role " ++ quote role.name
  | .emptyScope role => "auth token role " ++ quote role.name ++ " has empty service scope"
  | .duplicateScope service => "duplicate service scope " ++ quote service
  | .missingToken item => "auth token entry " ++ quote item ++ " must include a token"
  | .identity err => err
  | .adminScoped => "admin auth role cannot be service-scoped"
  | .duplicatePrincipal => "duplicate auth principal"
  | .scopedToken role => "scoped auth token for role " ++ quote role.name ++ " requires ParseStaticTokenPrincipals"

def trimmed (piece : List Char) : String := .ofList (trim isSpace piece)

def parseServices (role : Role) : List (List Char) → List String → Except PrincipalError (List String)
  | [], services => .ok services
  | service :: rest, services =>
    let service := trimmed service
    if service = "" then .error (.emptyScope role)
    else if service ∈ services then .error (.duplicateScope service)
    else parseServices role rest (services ++ [service])

def parseRoleScope (raw : List Char) : Except PrincipalError (Role × List String) :=
  let parts : List Char × Option (List Char) := match cut ':' (trim isSpace raw) with
    | some (roleRaw, scopeRaw) => (roleRaw, some scopeRaw)
    | none => (trim isSpace raw, none)
  let role := Role.ofName (trimmed parts.1)
  if role = .unset then .error .missingRole
  else if !knownRole role then .error (.unsupportedRole role)
  else
    match parts.2 with
    | none => .ok (role, [])
    | some scopeRaw =>
      let scopeRaw := trim isSpace scopeRaw
      if scopeRaw = [] then .error (.emptyScope role)
      else
        let scopeRaw := scopeRaw.map fun c => if c = '+' then '|' else c
        (parseServices role (scopeRaw.splitOn '|') []).map (role, ·)

section Bindings

-- How the right side of an entry is read: as a token, or as the identity of a certificate.
variable (subjectOf : List Char → List Char → Except PrincipalError String)

def parseEntry (item : List Char) : Except PrincipalError (String × Principal) :=
  match cut '=' item with
  | none => .error (.missingEquals (.ofList item))
  | some (roleRaw, subject) =>
    match parseRoleScope roleRaw with
    | .error err => .error err
    | .ok (role, services) =>
      match subjectOf item (trim isSpace subject) with
      | .error err => .error err
      | .ok subject =>
        if role = .admin ∧ services ≠ [] then .error .adminScoped else .ok (subject, { role, services })

def parseEntries : List (List Char) → Dict String Principal → Except PrincipalError (Dict String Principal)
  | [], out => .ok out
  | item :: rest, out =>
    let item := trim isSpace item
    if item = [] then parseEntries rest out
    else
      match parseEntry subjectOf item with
      | .error err => .error err
      | .ok (subject, principal) =>
        if subject ∈ out then .error .duplicatePrincipal else parseEntries rest (out.insert subject principal)

def itemSeparator (c : Char) : Bool := c = ',' || c = ';'

def parseStaticPrincipalBindings (raw : String) : Except PrincipalError (Dict String Principal) :=
  let raw := trim isSpace raw.toList
  if raw = [] then .ok ∅
  else parseEntries subjectOf ((raw.splitOnP itemSeparator).filter (· ≠ [])) ∅

end Bindings

def tokenSubject (item subject : List Char) : Except PrincipalError String :=
  if subject = [] then .error (.missingToken (.ofList item)) else .ok (.ofList subject)

def parseStaticTokenPrincipals (raw : String) : Except PrincipalError (Dict String Principal) :=
  parseStaticPrincipalBindings tokenSubject raw

/-- The normal form of a certificate's identity needs a URL parser, and is a parameter. -/
def parseStaticMTLSPrincipals (normalizeCertificateIdentity : String → Except String String) (raw : String) :
    Except PrincipalError (Dict String Principal) :=
  parseStaticPrincipalBindings (fun _ subject => (normalizeCertificateIdentity (.ofList subject)).mapError .identity) raw

/-- The keys of a map are distinct, so the loop that fills the roles writes each once. -/
def parseStaticTokens (raw : String) : Except PrincipalError (Dict String Role) :=
  match parseStaticTokenPrincipals raw with
  | .error err => .error err
  | .ok principals =>
    match principals.entries.find? fun e => !e.2.global with
    | some e => .error (.scopedToken e.2.role)
    | none => .ok (Dict.mapVal (fun _ principal => principal.role) principals)

/-! ## Forms of an entry -/

def serviceSeparator (c : Char) : Bool := c = '+' || c = '|'

inductive RoleScope (raw : List Char) : Role → List String → Prop
  | global (hcolon : ':' ∉ raw) (hrole : knownRole (.ofName (trimmed raw)) = true) : RoleScope raw (.ofName (trimmed raw)) []
  | limited {role scope : List Char} {services : List (List Char)} (hraw : raw = role ++ ':' :: scope) (hcolon : ':' ∉ role)
      (hservices : Fields serviceSeparator scope services) (hrole : knownRole (.ofName (trimmed role)) = true)
      (hblank : ∀ service ∈ services, trimmed service ≠ "") (hdistinct : (services.map trimmed).Nodup) :
      RoleScope raw (.ofName (trimmed role)) (services.map trimmed)

/-- The entry is `role=token` or `role:service+service=token`, and `admin` is of the first kind. -/
structure Reads (item : List Char) (token : String) (principal : Principal) : Prop where
  sides : ∃ left right, item = left ++ '=' :: right ∧ '=' ∉ left ∧
    RoleScope left principal.role principal.services ∧ token = trimmed right
  token : token ≠ ""
  admin : principal.role = .admin → principal.services = []

/-! ## One entry -/

variable {role : Role}

theorem parseServices_ok_iff {pieces : List (List Char)} {seen services : List String} (hseen : seen.Nodup) :
    parseServices role pieces seen = .ok services ↔
      services = seen ++ pieces.map trimmed ∧ (∀ service ∈ pieces.map trimmed, service ≠ "") ∧ services.Nodup := by
  induction pieces generalizing seen with
  | nil =>
    simp only [parseServices, Except.ok.injEq, List.map_nil, List.append_nil]
    constructor
    · rintro rfl
      exact ⟨rfl, by simp, hseen⟩
    · exact fun h => h.1.symm
  | cons piece rest ih =>
    simp only [parseServices, List.map_cons, List.forall_mem_cons]
    split
    · rename_i hblank
      simp [hblank]
    split
    · rename_i hblank hmem
      constructor
      · intro h
        cases h
      · rintro ⟨rfl, -, hnodup⟩
        have hdisjoint := (List.nodup_append.mp hnodup).2.2 _ hmem _ List.mem_cons_self
        exact absurd rfl hdisjoint
    · rename_i hblank hmem
      have hseen' : (seen ++ [trimmed piece]).Nodup := by
        rw [← List.concat_eq_append]
        exact hseen.concat hmem
      rw [ih hseen', List.append_assoc, List.singleton_append]
      simp [hblank]

theorem separator_not_blank : ∀ c, serviceSeparator c = true → isSpace c = false := by
  intro c hc
  simp only [serviceSeparator, Bool.or_eq_true, decide_eq_true_eq] at hc
  rcases hc with rfl | rfl <;> decide

theorem splitOn_bar (scope : List Char) :
    (scope.map fun c => if c = '+' then '|' else c).splitOn '|' = scope.splitOnP serviceSeparator := by
  obtain ⟨parts, hparts⟩ := exists_fields serviceSeparator scope
  have hbars : Fields (· == '|') (scope.map fun c => if c = '+' then '|' else c) parts := by
    apply hparts.map
    · intro c hc
      simp only [serviceSeparator, Bool.or_eq_false_iff, decide_eq_false_iff_not] at hc
      rw [if_neg hc.1]
    · intro c
      by_cases hplus : c = '+'
      · simp [serviceSeparator, hplus]
      · simp only [serviceSeparator, hplus, if_false, decide_false, Bool.false_or]
        exact beq_eq_decide c '|'
  rw [hparts.splitOnP]
  exact hbars.splitOnP

theorem services_of_trim (scope : List Char) :
    ((trim isSpace scope).splitOnP serviceSeparator).map trimmed = (scope.splitOnP serviceSeparator).map trimmed := by
  have htrim := congrArg (List.map String.ofList) (map_trim_splitOnP_trim separator_not_blank scope)
  rwa [List.map_map, List.map_map] at htrim

theorem trimmed_dropWhile (piece : List Char) : trimmed (piece.dropWhile isSpace) = trimmed piece := by
  rw [trimmed, trim_dropWhile, trimmed]

theorem trimmed_trim (piece : List Char) : trimmed (trim isSpace piece) = trimmed piece := by
  rw [trimmed, trim_trim, trimmed]

theorem ne_unset_of_knownRole (h : knownRole role = true) : role ≠ .unset := by
  rintro rfl
  cases h

variable {services : List String}

theorem parseRoleScope_global {raw : List Char} (hcolon : ':' ∉ raw) :
    parseRoleScope raw = .ok (role, services) ↔
      knownRole (.ofName (trimmed raw)) = true ∧ role = .ofName (trimmed raw) ∧ services = [] := by
  have hcut : cut ':' (trim isSpace raw) = none := cut_eq_none_iff.mpr fun h => hcolon (trim_subset raw h)
  unfold parseRoleScope
  simp only [hcut, trimmed_trim]
  by_cases hknown : knownRole (.ofName (trimmed raw)) = true
  · simp only [ne_unset_of_knownRole hknown, hknown, Bool.not_true, Bool.false_eq_true, if_false, Except.ok.injEq,
      Prod.mk.injEq, true_and]
    tauto
  · split <;> simp [hknown]

theorem parseRoleScope_scoped {name scope : List Char} (hcolon : ':' ∉ name) :
    parseRoleScope (name ++ ':' :: scope) = .ok (role, services) ↔
      knownRole (.ofName (trimmed name)) = true ∧ role = .ofName (trimmed name) ∧
      services = (scope.splitOnP serviceSeparator).map trimmed ∧ (∀ service ∈ services, service ≠ "") ∧ services.Nodup := by
  have hcut : cut ':' (trim isSpace (name ++ ':' :: scope)) =
      some (name.dropWhile isSpace, scope.rdropWhile isSpace) := by
    rw [trim_append_cons (by decide)]
    exact cut_append_cons (fun h => hcolon ((List.dropWhile_sublist _).subset h)) _
  unfold parseRoleScope
  simp only [hcut, trimmed_dropWhile, trim_rdropWhile, splitOn_bar]
  by_cases hknown : knownRole (.ofName (trimmed name)) = true
  · simp only [ne_unset_of_knownRole hknown, hknown, Bool.not_true, Bool.false_eq_true, if_false, true_and]
    rw [← services_of_trim]
    split
    · rename_i hblank
      have hpieces : ((trim isSpace scope).splitOnP serviceSeparator).map trimmed = [""] := by
        rw [hblank]
        rfl
      constructor
      · intro h
        cases h
      · rintro ⟨-, rfl, hne, -⟩
        rw [hpieces] at hne
        exact absurd rfl (hne "" (List.mem_singleton_self _))
    · constructor
      · intro h
        cases hfound : parseServices (.ofName (trimmed name)) ((trim isSpace scope).splitOnP serviceSeparator) [] with
        | error err =>
          rw [hfound] at h
          cases h
        | ok found =>
          rw [hfound] at h
          cases h
          obtain ⟨heq, hne, hnodup⟩ := (parseServices_ok_iff List.nodup_nil).mp hfound
          rw [List.nil_append] at heq
          exact ⟨rfl, heq, heq ▸ hne, hnodup⟩
      · rintro ⟨rfl, rfl, hne, hnodup⟩
        rw [(parseServices_ok_iff List.nodup_nil).mpr ⟨(List.nil_append _).symm, hne, hnodup⟩]
        rfl
  · split <;> simp [hknown]

theorem parseRoleScope_ok_iff {raw : List Char} :
    parseRoleScope raw = .ok (role, services) ↔ RoleScope raw role services := by
  by_cases hcolon : ':' ∈ raw
  · obtain ⟨name, scope, rfl, hname⟩ := List.eq_append_cons_of_mem hcolon
    rw [parseRoleScope_scoped hname]
    constructor
    · rintro ⟨hknown, rfl, rfl, hne, hnodup⟩
      exact .limited rfl hname (fields_iff.mpr rfl) hknown (fun piece hpiece => hne _ (List.mem_map_of_mem hpiece)) hnodup
    · intro h
      cases h with
      | global hnone => exact absurd hcolon hnone
      | limited hraw hname' hpieces hknown hne hnodup =>
        obtain ⟨rfl, rfl⟩ := append_cons_inj hname hname' hraw
        rw [hpieces.splitOnP]
        exact ⟨hknown, rfl, rfl, List.forall_mem_map.mpr hne, hnodup⟩
  · rw [parseRoleScope_global hcolon]
    constructor
    · rintro ⟨hknown, rfl, rfl⟩
      exact .global hcolon hknown
    · intro h
      cases h with
      | global _ hknown => exact ⟨hknown, rfl, rfl⟩
      | limited hraw =>
        rw [hraw] at hcolon
        simp at hcolon

theorem parseRoleScope_dropWhile (raw : List Char) : parseRoleScope (raw.dropWhile isSpace) = parseRoleScope raw := by
  unfold parseRoleScope
  rw [trim_dropWhile]

theorem trimmed_eq_empty_iff {piece : List Char} : trimmed piece = "" ↔ trim isSpace piece = [] := by
  rw [trimmed, ← String.toList_inj, String.toList_ofList]
  rfl

theorem parseEntry_sides (subjectOf : List Char → List Char → Except PrincipalError String) {left right : List Char}
    (hleft : '=' ∉ left) :
    parseEntry subjectOf (trim isSpace (left ++ '=' :: right)) =
      match parseRoleScope left with
      | .error err => .error err
      | .ok (role, services) =>
        match subjectOf (trim isSpace (left ++ '=' :: right)) (trim isSpace right) with
        | .error err => .error err
        | .ok subject =>
          if role = .admin ∧ services ≠ [] then .error .adminScoped else .ok (subject, { role, services }) := by
  have hcut : cut '=' (trim isSpace (left ++ '=' :: right)) = some (left.dropWhile isSpace, right.rdropWhile isSpace) := by
    rw [trim_append_cons (by decide)]
    exact cut_append_cons (fun h => hleft ((List.dropWhile_sublist _).subset h)) _
  unfold parseEntry
  simp only [hcut, parseRoleScope_dropWhile, trim_rdropWhile]

theorem parseEntry_ok_iff {item : List Char} {e : String × Principal} :
    parseEntry tokenSubject (trim isSpace item) = .ok e ↔ Reads item e.1 e.2 := by
  obtain ⟨token, principal⟩ := e
  by_cases hequals : '=' ∈ item
  · obtain ⟨left, right, rfl, hleft⟩ := List.eq_append_cons_of_mem hequals
    rw [parseEntry_sides tokenSubject hleft]
    constructor
    · intro h
      cases hscope : parseRoleScope left with
      | error err =>
        rw [hscope] at h
        cases h
      | ok parsed =>
        obtain ⟨role, services⟩ := parsed
        simp only [hscope, tokenSubject] at h
        split at h
        · cases h
        rename_i hsubject
        split at hsubject
        · cases hsubject
        rename_i htoken
        cases hsubject
        split at h
        · cases h
        rename_i hadmin
        cases h
        refine ⟨⟨left, right, rfl, hleft, parseRoleScope_ok_iff.mp hscope, rfl⟩, ?_, ?_⟩
        · exact fun h => htoken (trimmed_eq_empty_iff.mp h)
        · intro hrole
          by_contra hservices
          exact hadmin ⟨hrole, hservices⟩
    · rintro ⟨⟨left', right', hitem, hleft', hscope, rfl⟩, htoken, hadmin⟩
      obtain ⟨rfl, rfl⟩ := append_cons_inj hleft hleft' hitem
      have hsubject : trim isSpace right ≠ [] := fun h => htoken (trimmed_eq_empty_iff.mpr h)
      simp only [parseRoleScope_ok_iff.mpr hscope, tokenSubject, hsubject, if_false]
      rw [if_neg fun h => h.2 (hadmin h.1)]
      rfl
  · have hcut : cut '=' (trim isSpace item) = none := cut_eq_none_iff.mpr fun h => hequals (trim_subset item h)
    constructor
    · intro h
      simp [parseEntry, hcut] at h
    · rintro ⟨⟨left, right, rfl, -⟩, -, -⟩
      simp at hequals

theorem Reads.limited {item : List Char} {token : String} {principal : Principal} (h : Reads item token principal)
    (hcolon : ':' ∈ item.takeWhile (· ≠ '=')) : principal.global = false := by
  obtain ⟨left, right, rfl, hleft, hscope, -⟩ := h.sides
  have hbefore : (left ++ '=' :: right).takeWhile (· ≠ '=') = left := by
    have hall : ∀ c ∈ left, decide (c ≠ '=') = true := by
      intro c hc
      rw [decide_eq_true_eq]
      rintro rfl
      exact hleft hc
    rw [List.takeWhile_append_of_pos hall]
    simp
  rw [hbefore] at hcolon
  unfold Principal.global
  generalize principal.role = role, principal.services = services at hscope
  cases hscope with
  | global hnone => exact absurd hcolon hnone
  | limited _ _ hpieces => simpa using hpieces.ne_nil

/-! ## All entries -/

section Bindings

variable {subjectOf : List Char → List Char → Except PrincipalError String}

def nonBlank (items : List (List Char)) : List (List Char) := items.filter fun item => trim isSpace item ≠ []

theorem parseEntries_ok_iff {items : List (List Char)} {out out' : Dict String Principal} :
    parseEntries subjectOf items out = .ok out' ↔
      ∃ entries : List (String × Principal),
        List.Forall₂ (fun item e => parseEntry subjectOf (trim isSpace item) = .ok e) (nonBlank items) entries ∧
        (entries.map Prod.fst).Nodup ∧ (∀ e ∈ entries, e.1 ∉ out) ∧
        out' = entries.foldl (fun out e => out.insert e.1 e.2) out := by
  induction items generalizing out with
  | nil =>
    simp only [parseEntries, nonBlank, List.filter_nil, List.forall₂_nil_left_iff, Except.ok.injEq, exists_eq_left]
    simp [eq_comm]
  | cons item rest ih =>
    unfold parseEntries
    dsimp only
    split
    · rename_i hblank
      have hskip : nonBlank (item :: rest) = nonBlank rest := by simp [nonBlank, hblank]
      rw [ih, hskip]
    · rename_i hblank
      have htake : nonBlank (item :: rest) = item :: nonBlank rest := by simp [nonBlank, hblank]
      rw [htake]
      simp only [List.forall₂_cons_left_iff]
      cases hentry : parseEntry subjectOf (trim isSpace item) with
      | error err => simp
      | ok e =>
        obtain ⟨subject, principal⟩ := e
        simp only
        split
        · -- the subject stands in the map already
          rename_i hmem
          simp only [reduceCtorEq, false_iff]
          rintro ⟨_, ⟨first, others, hfirst, -, rfl⟩, -, hnew, -⟩
          cases hfirst
          exact hnew _ List.mem_cons_self hmem
        · rename_i hmem
          rw [ih]
          constructor
          · rintro ⟨others, hothers, hnodup, hnew, rfl⟩
            simp only [AList.mem_insert, not_or] at hnew
            refine ⟨(subject, principal) :: others, ⟨_, _, rfl, hothers, rfl⟩, ?_, ?_, rfl⟩
            · rw [List.map_cons, List.nodup_cons, List.mem_map]
              refine ⟨?_, hnodup⟩
              rintro ⟨e, he, hsubject⟩
              exact (hnew e he).1 hsubject
            · exact List.forall_mem_cons.mpr ⟨hmem, fun e he => (hnew e he).2⟩
          · rintro ⟨_, ⟨first, others, hfirst, hothers, rfl⟩, hnodup, hnew, rfl⟩
            cases hfirst
            rw [List.map_cons, List.nodup_cons, List.mem_map] at hnodup
            refine ⟨others, hothers, hnodup.2, fun e he => ?_, rfl⟩
            rw [AList.mem_insert, not_or]
            exact ⟨fun hsubject => hnodup.1 ⟨e, he, hsubject⟩, hnew e (List.mem_cons_of_mem _ he)⟩

theorem map_trim_nonBlank (items : List (List Char)) :
    (nonBlank items).map (trim isSpace) = (items.map (trim isSpace)).filter (· ≠ []) := by
  rw [List.filter_map]
  rfl

theorem parseEntries_congr {items items' : List (List Char)}
    (h : (items.map (trim isSpace)).filter (· ≠ []) = (items'.map (trim isSpace)).filter (· ≠ []))
    {out out' : Dict String Principal} :
    parseEntries subjectOf items out = .ok out' ↔ parseEntries subjectOf items' out = .ok out' := by
  have hforall : ∀ (l : List (List Char)) (entries : List (String × Principal)),
      List.Forall₂ (fun item e => parseEntry subjectOf (trim isSpace item) = .ok e) (nonBlank l) entries ↔
        List.Forall₂ (fun item e => parseEntry subjectOf item = .ok e) ((l.map (trim isSpace)).filter (· ≠ [])) entries := by
    intro l entries
    rw [← map_trim_nonBlank, List.forall₂_map_left_iff]
  rw [parseEntries_ok_iff, parseEntries_ok_iff]
  simp only [hforall, h]

theorem itemSeparator_not_blank : ∀ c, itemSeparator c = true → isSpace c = false := by
  intro c hc
  simp only [itemSeparator, Bool.or_eq_true, decide_eq_true_eq] at hc
  rcases hc with rfl | rfl <;> decide

theorem filter_map_trim (items : List (List Char)) :
    ((items.filter (· ≠ [])).map (trim isSpace)).filter (· ≠ []) = (items.map (trim isSpace)).filter (· ≠ []) := by
  rw [List.filter_map, List.filter_map, List.filter_filter]
  congr 1
  apply List.filter_congr
  intro item _
  by_cases hitem : item = []
  · rw [hitem]
    rfl
  · simp [hitem]

theorem parseStaticPrincipalBindings_ok_iff {raw : String} {items : List (List Char)}
    (hitems : Fields itemSeparator raw.toList items) {out : Dict String Principal} :
    parseStaticPrincipalBindings subjectOf raw = .ok out ↔ parseEntries subjectOf items ∅ = .ok out := by
  have htrim := map_trim_splitOnP_trim itemSeparator_not_blank raw.toList
  rw [hitems.splitOnP] at htrim
  unfold parseStaticPrincipalBindings
  dsimp only
  split
  · rename_i hblank
    have hnone : nonBlank items = [] := by
      have hkept := map_trim_nonBlank items
      rw [← htrim, hblank] at hkept
      exact List.map_eq_nil_iff.mp hkept
    rw [parseEntries_ok_iff, hnone]
    simp [eq_comm]
  · apply parseEntries_congr
    rw [filter_map_trim, htrim]

end Bindings

/-- A text is taken if and only if each item that is not blank has one of the two forms and no two of them the same
token. An item with a colon in front of its first equals sign does not give a global principal. -/
theorem token_principals_parsed (raw : String) (items : List (List Char))
    (hitems : Fields itemSeparator raw.toList items) :
    ((∃ out, parseStaticTokenPrincipals raw = .ok out) ↔
      ∃ entries : List (String × Principal), List.Forall₂ (fun item e => Reads item e.1 e.2) (nonBlank items) entries ∧
        (entries.map Prod.fst).Nodup) ∧
    (∀ out, parseStaticTokenPrincipals raw = .ok out →
      ∃ entries : List (String × Principal), List.Forall₂ (fun item e => Reads item e.1 e.2) (nonBlank items) entries ∧
        (out.entries.map fun e => (e.1, e.2)).Perm entries) ∧
    ∀ item token principal, Reads item token principal → ':' ∈ item.takeWhile (· ≠ '=') → principal.global = false := by
  have hparsed : ∀ out, parseStaticTokenPrincipals raw = .ok out ↔
      ∃ entries : List (String × Principal), List.Forall₂ (fun item e => Reads item e.1 e.2) (nonBlank items) entries ∧
        (entries.map Prod.fst).Nodup ∧ out = entries.foldl (fun out e => out.insert e.1 e.2) ∅ := by
    intro out
    unfold parseStaticTokenPrincipals
    rw [parseStaticPrincipalBindings_ok_iff hitems, parseEntries_ok_iff]
    simp [parseEntry_ok_iff]
  refine ⟨⟨?_, ?_⟩, ?_, fun item token principal h hcolon => h.limited hcolon⟩
  · rintro ⟨out, hout⟩
    obtain ⟨entries, hreads, hnodup, -⟩ := (hparsed out).mp hout
    exact ⟨entries, hreads, hnodup⟩
  · rintro ⟨entries, hreads, hnodup⟩
    exact ⟨_, (hparsed _).mpr ⟨entries, hreads, hnodup, rfl⟩⟩
  · intro out hout
    obtain ⟨entries, hreads, hnodup, rfl⟩ := (hparsed out).mp hout
    refine ⟨entries, hreads, ?_⟩
    have hperm := Dict.foldl_insert_perm hnodup (d := ∅) (by simp)
    simpa using hperm

theorem two_principals_parsed :
    parseStaticTokenPrincipals "admin=root; reader:a+b=t1" =
      .ok (((∅ : Dict String Principal).insert "root" { role := .admin }).insert "t1"
        { role := .reader, services := ["a", "b"] }) ∧
    ∃ entries : List (String × Principal),
      List.Forall₂ (fun item e => Reads item e.1 e.2) (nonBlank ["admin=root".toList, " reader:a+b=t1".toList]) entries ∧
        (entries.map Prod.fst).Nodup :=
  have hparsed : parseStaticTokenPrincipals "admin=root; reader:a+b=t1" = _ := rfl
  ⟨hparsed, (token_principals_parsed "admin=root; reader:a+b=t1" _ (fields_iff.mpr (by decide))).1.mp ⟨_, hparsed⟩⟩

theorem colon_in_the_token :
    ':' ∈ "reader=a:b".toList ∧
    parseStaticTokenPrincipals "reader=a:b" = .ok ((∅ : Dict String Principal).insert "a:b" { role := .reader }) ∧
    Principal.global { role := .reader } = true :=
  ⟨by decide, by rfl, by decide⟩

end AegisMesh.Security
