import MessageBus.Failure
import MessageBus.Proofs.JsonValues

/-!
# The codes of a failure

When there is a failure at all: its text can be told (`Failure.Arises`). What the codes of a response are as long
as its errors can be listed (`codes_of_lists`), which of its parts bear them (`mem_borne`), and how a search among
JSON codes for a security code ends (`anySecurity_json`): a list or dictionary in front of the first security code
ends it in a fault.
-/

namespace MessageBus

namespace Value

def IsDict (v : Value) : Prop := ∃ entries, v = .dict entries

/-- The containers that JSON knows. -/
inductive IsContainer : Value → Prop where
  | list (items : List Value) : IsContainer (.list items)
  | dict (entries : List (Value × Value)) : IsContainer (.dict entries)

theorem not_isContainer_text (t : Text) : ¬ (Value.text t).IsContainer := nofun

theorem IsJson.of_mem {items : List Value} {v : Value} (h : (Value.list items).IsJson) (hv : v ∈ items) :
    v.IsJson := by
  generalize hlist : Value.list items = l at h
  cases h with
  | list hall =>
    cases hlist
    exact hall v hv
  | _ => cases hlist

/-- The entries of a JSON dictionary are fields. -/
theorem IsJson.exists_fields {entries : List (Value × Value)} (h : (Value.dict entries).IsJson) :
    ∃ fields : List (Text × Value), entries = fields.map (fun e => (.text e.1, e.2)) ∧
      ∀ e ∈ fields, e.2.IsJson := by
  generalize hdict : Value.dict entries = d at h
  cases h with
  | dict hkeys hall =>
    cases hdict
    exact ⟨_, rfl, hall⟩
  | _ => cases hdict

theorem IsJson.of_lookup {key : Text} {entries : List (Value × Value)} {v : Value}
    (h : (Value.dict entries).IsJson) (hv : lookup key entries = some v) : v.IsJson := by
  obtain ⟨fields, rfl, hall⟩ := h.exists_fields
  obtain ⟨field, hfield, hsame⟩ := List.mem_map.mp (mem_of_lookup hv)
  cases hsame
  exact hall field hfield

end Value

namespace Failure

/-! ## Failures that there are -/

/-- A failure that there is: its text can be told. -/
def Arises (f : Failure) : Prop := ∃ words, f.text = .ok words

/-- The response of a refusal that there is: an object, whose error is an object if it has one. -/
theorem Arises.response {response : Value} {operation : Text} (h : (refused response operation).Arises) :
    ∃ entries, response = .dict entries ∧
      ∀ error, Value.lookup "Error" entries = some error → error.IsDict := by
  obtain ⟨words, hwords⟩ := h
  obtain ⟨_, -, hrest⟩ := bind_eq_ok.mp hwords
  obtain ⟨error, herror, hrest⟩ := bind_eq_ok.mp hrest
  obtain ⟨code, hcode, -⟩ := bind_eq_ok.mp hrest
  cases response with
  | dict entries =>
    refine ⟨entries, rfl, fun own hown => ?_⟩
    rw [Value.get, hown] at herror
    cases herror
    cases own with
    | dict fields => exact ⟨fields, rfl⟩
    | _ => cases hcode
  | _ => cases herror

/-- A refusal is there when its response tells nothing of retries, and its code and message can be put into words. -/
theorem arises_refused {entries error : List (Value × Value)} {operation code message : Text}
    (hmetadata : Value.lookup "ResponseMetadata" entries = none)
    (herror : (Value.lookup "Error" entries).getD (.dict []) = .dict error)
    (hcode : ((Value.lookup "Code" error).getD (.text "Unknown")).inWords = .ok code)
    (hmessage : ((Value.lookup "Message" error).getD (.text "Unknown")).inWords = .ok message) :
    (refused (.dict entries) operation).Arises := by
  have hretries : retries (.dict entries) = .ok [] := by
    simp [retries, Value.contains, hmetadata, bind, Except.bind]
  simp only [Arises, text, refusalText, hretries, Value.get, herror, hcode, hmessage, bind, Except.bind]
  exact ⟨_, rfl⟩

/-! ## Codes of errors -/

/-- The codes that an error gives: its own, unless it has none that counts. -/
def given (error : Value) : List Value := ((error.field? "Code").filter Value.truthy).toList

theorem mem_given {t : Text} {error : Value} (ht : t ≠ []) :
    .text t ∈ given error ↔ error.field? "Code" = some (.text t) := by
  have htruthy : (Value.text t).truthy = true := by simpa [Value.truthy] using ht
  rw [given, Option.mem_toList, Option.filter_eq_some_iff]
  exact and_iff_left htruthy

theorem codeOf_dict (entries : List (Value × Value)) : codeOf (.dict entries) = .ok (given (.dict entries)) := by
  rw [codeOf, Value.get, given, Value.field?]
  cases Value.lookup "Code" entries with
  | none => rfl
  | some code => cases h : code.truthy <;> simp [bind, Except.bind, Option.filter, h]

theorem codeOf_of_not_dict {error : Value} (h : ¬ error.IsDict) : codeOf error = .error .attribute := by
  cases error with
  | dict entries => exact absurd ⟨entries, rfl⟩ h
  | _ => rfl

theorem codesOf_dicts {errors : List Value} (h : ∀ error ∈ errors, error.IsDict) :
    codesOf errors = .ok (errors.flatMap given) := by
  induction errors with
  | nil => rfl
  | cons error errors ih =>
    obtain ⟨entries, rfl⟩ := h error List.mem_cons_self
    rw [codesOf, codeOf_dict, ih fun e he => h e (List.mem_cons_of_mem _ he)]
    rfl

theorem codesOf_of_not_dict {errors : List Value} {error : Value} (hmem : error ∈ errors) (h : ¬ error.IsDict) :
    codesOf errors = .error .attribute := by
  induction errors with
  | nil => cases hmem
  | cons first errors ih =>
    rw [codesOf]
    by_cases hfirst : first.IsDict
    · obtain ⟨entries, rfl⟩ := hfirst
      have hrest : error ∈ errors := by
        refine (List.mem_cons.mp hmem).resolve_left ?_
        rintro rfl
        exact h ⟨entries, rfl⟩
      rw [codeOf_dict, ih hrest]
      rfl
    · rw [codeOf_of_not_dict hfirst]
      rfl

/-! ## Codes of a response -/

/-- The codes of the errors that are listed with an error. -/
def listedCodes (listed : Value) : Except Fault (List Value) :=
  if listed.truthy then listed.items >>= codesOf else .ok []

theorem listedCodes_of_not_truthy {listed : Value} (h : listed.truthy = false) : listedCodes listed = .ok [] := by
  rw [listedCodes, h]
  rfl

theorem listedCodes_list (errors : List Value) : listedCodes (.list errors) = codesOf errors := by
  cases errors <;> rfl

/-- The codes of a response whose own error is an object: what remains is to list the others. -/
theorem codes_refused {entries : List (Value × Value)} {operation : Text}
    (herror : ∀ error, Value.lookup "Error" entries = some error → error.IsDict) :
    (refused (.dict entries) operation).codes =
      (listedCodes ((Value.lookup "Errors" entries).getD (.list []))).map
        (((Value.dict entries).field? "Error").toList.flatMap given ++ ·) := by
  have hown : codeOf ((Value.lookup "Error" entries).getD (.dict [])) =
      .ok (((Value.dict entries).field? "Error").toList.flatMap given) := by
    rw [Value.field?]
    cases hlookup : Value.lookup "Error" entries with
    | none => rfl
    | some error =>
      obtain ⟨fields, rfl⟩ := herror error hlookup
      simpa using codeOf_dict fields
  simp only [codes, Value.get, bind, Except.bind, hown, listedCodes]
  generalize (Value.lookup "Errors" entries).getD (.list []) = listed
  cases listed.truthy with
  | false => rfl
  | true =>
    cases listed.items with
    | error fault => rfl
    | ok errors =>
      simp only [if_true]
      cases codesOf errors <;> rfl

/-- What a response lists under `Errors` are these errors: none if nothing that counts is there. -/
inductive Lists (response : Value) : List Value → Prop where
  | nothing (h : ∀ v, response.field? "Errors" = some v → v.truthy = false) : Lists response []
  | errors {errors : List Value} (h : response.field? "Errors" = some (.list errors))
      (hdicts : ∀ error ∈ errors, error.IsDict) : Lists response errors

/-- The codes of a response that lists some errors: of its own error, then of the listed ones. -/
def borne (response : Value) (errors : List Value) : List Value :=
  ((response.field? "Error").toList ++ errors).flatMap given

theorem codes_of_lists {entries : List (Value × Value)} {operation : Text} {errors : List Value}
    (herror : ∀ error, Value.lookup "Error" entries = some error → error.IsDict)
    (h : Lists (.dict entries) errors) :
    (refused (.dict entries) operation).codes = .ok (borne (.dict entries) errors) := by
  have hlisted : listedCodes ((Value.lookup "Errors" entries).getD (.list [])) = .ok (errors.flatMap given) := by
    cases h with
    | nothing h =>
      refine listedCodes_of_not_truthy ?_
      cases hlookup : Value.lookup "Errors" entries with
      | none => rfl
      | some v => exact h v hlookup
    | errors h hdicts =>
      have hlookup : Value.lookup "Errors" entries = some (.list errors) := h
      rw [hlookup, Option.getD_some, listedCodes_list, codesOf_dicts hdicts]
  rw [codes_refused herror, borne, List.flatMap_append, hlisted]
  rfl

theorem mem_borne {response : Value} {errors : List Value} (h : Lists response errors) {t : Text} (ht : t ≠ []) :
    .text t ∈ borne response errors ↔
      (∃ error, response.field? "Error" = some error ∧ error.field? "Code" = some (.text t)) ∨
        ∃ errors error, response.field? "Errors" = some (.list errors) ∧ error ∈ errors ∧
          error.field? "Code" = some (.text t) := by
  rw [borne, List.flatMap_append, List.mem_append, List.mem_flatMap, List.mem_flatMap]
  refine or_congr ?_ ?_
  · simp only [mem_given ht, Option.mem_toList]
  · simp only [mem_given ht]
    cases h with
    | nothing h =>
      constructor
      · rintro ⟨_, hmem, _⟩
        cases hmem
      · rintro ⟨errors, error, herrors, hmem, _⟩
        have hempty := h _ herrors
        rw [Value.truthy, Bool.not_eq_false', List.isEmpty_iff] at hempty
        rw [hempty] at hmem
        cases hmem
    | errors h hdicts =>
      rw [h]
      simp

/-! ## Security codes -/

/-- A list or dictionary stands among codes, and no security code in front of it. -/
inductive Stumbles : List Value → Prop where
  | here {code : Value} {codes : List Value} (hcode : code.IsContainer) : Stumbles (code :: codes)
  | behind {code : Value} {codes : List Value} (hcode : ∀ t ∈ securityCodes, code ≠ .text t)
      (h : Stumbles codes) : Stumbles (code :: codes)

theorem not_stumbles_of_texts {codes : List Value} (h : ∀ code ∈ codes, ∃ t, code = .text t) : ¬ Stumbles codes := by
  intro hstumbles
  induction hstumbles with
  | here hcode =>
    obtain ⟨t, rfl⟩ := h _ List.mem_cons_self
    exact Value.not_isContainer_text t hcode
  | behind _ _ ih => exact ih fun code hmem => h code (List.mem_cons_of_mem _ hmem)

/-- What the search for a security code makes of a code: it fails, it has found one, or it goes on. -/
theorem anySecurity_cons {code : Value} (h : code.IsJson) :
    (code.IsContainer ∧ ∀ codes, anySecurity (code :: codes) = .error .type) ∨
      (∃ t ∈ securityCodes, code = .text t ∧ ∀ codes, anySecurity (code :: codes) = .ok true) ∨
      (¬ code.IsContainer ∧ (∀ t ∈ securityCodes, code ≠ .text t) ∧
        ∀ codes, anySecurity (code :: codes) = anySecurity codes) := by
  cases h with
  | list _ => exact .inl ⟨.list _, fun _ => rfl⟩
  | dict _ _ => exact .inl ⟨.dict _, fun _ => rfl⟩
  | text t =>
    by_cases ht : t ∈ securityCodes
    · exact .inr (.inl ⟨t, ht, rfl, fun codes => by rw [anySecurity, if_pos ht]⟩)
    · refine .inr (.inr ⟨Value.not_isContainer_text t, ?_, fun codes => by rw [anySecurity, if_neg ht]⟩)
      rintro u hu ⟨⟩
      exact ht hu
  | null => exact .inr (.inr ⟨nofun, by simp, fun _ => rfl⟩)
  | bool b => exact .inr (.inr ⟨nofun, by simp, fun _ => rfl⟩)
  | int n => exact .inr (.inr ⟨nofun, by simp, fun _ => rfl⟩)
  | float hx => exact .inr (.inr ⟨nofun, by simp, fun _ => rfl⟩)

/-- How the search for a security code ends. The induction is on the codes: the first one decides, or it is passed
over and the rest decides. -/
theorem anySecurity_json {codes : List Value} (h : ∀ code ∈ codes, code.IsJson) :
    (Stumbles codes ∧ anySecurity codes = .error .type) ∨
      (¬ Stumbles codes ∧ ∃ b, anySecurity codes = .ok b ∧ (b = true ↔ ∃ t ∈ securityCodes, .text t ∈ codes)) := by
  induction codes with
  | nil => exact .inr ⟨nofun, false, rfl, by simp⟩
  | cons code codes ih =>
    rcases anySecurity_cons (h code List.mem_cons_self) with
      ⟨hcode, hscan⟩ | ⟨t, ht, rfl, hscan⟩ | ⟨hleaf, hcode, hscan⟩
    · exact .inl ⟨.here hcode, hscan codes⟩
    · refine .inr ⟨?_, true, hscan codes, by simpa using ⟨t, ht, .inl rfl⟩⟩
      intro hstumbles
      cases hstumbles with
      | here hcode => exact Value.not_isContainer_text t hcode
      | behind hcode _ => exact hcode t ht rfl
    · rw [hscan]
      refine (ih fun c hc => h c (List.mem_cons_of_mem _ hc)).imp (And.imp_left (.behind hcode)) ?_
      rintro ⟨hcodes, b, hb, hiff⟩
      refine ⟨?_, b, hb, hiff.trans ?_⟩
      · intro hstumbles
        cases hstumbles with
        | here hcontainer => exact hleaf hcontainer
        | behind _ hbehind => exact hcodes hbehind
      · refine exists_congr fun t => and_congr_right fun ht => ?_
        rw [List.mem_cons, or_iff_right (Ne.symm (hcode t ht))]

end Failure

end MessageBus
