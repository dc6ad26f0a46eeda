-- SUMMARY: Dictionaries of options stay in order and come back from their saved form.
import CodeLift.Options
import Mathlib.Data.String.Basic

/-!
# Options in order

A dictionary is a list in which the keys increase; so are the dictionaries inside it
(`Options.Ordered`). Setting and erasing an option keep this, whatever is read from saved data
has it, and what has it comes back from its saved form as it was
(`SavedArchitecture.ofJson?_toJson`).
-/

namespace CodeLift

/-! ## Order -/

mutual

/-- In every dictionary that the value is made of the keys increase. -/
def OptionValue.Ordered : OptionValue → Prop
  | .item _ => True
  | .list values => OptionValue.ListOrdered values
  | .dict entries => OptionValue.EntriesOrdered entries

def OptionValue.ListOrdered : List OptionValue → Prop
  | [] => True
  | value :: rest => value.Ordered ∧ OptionValue.ListOrdered rest

def OptionValue.EntriesOrdered : List (String × OptionValue) → Prop
  | [] => True
  | (key, value) :: rest =>
    (∀ entry ∈ rest, key < entry.1) ∧ value.Ordered ∧ OptionValue.EntriesOrdered rest

end

namespace Options

variable {o : Options} {key : String} {value : OptionValue}

/-- The options are a dictionary, and so is every dictionary among their values. -/
def Ordered (o : Options) : Prop := OptionValue.EntriesOrdered o

/-! ## Dictionaries -/

theorem mem_insert {entry : String × OptionValue} (h : entry ∈ insert key value o) :
    entry = (key, value) ∨ entry ∈ o := by
  induction o with
  | nil => exact .inl (List.mem_singleton.1 h)
  | cons first rest ih =>
    unfold insert at h
    split at h
    · exact List.mem_cons.1 h
    · split at h
      · exact (List.mem_cons.1 h).imp_right (List.mem_cons_of_mem _)
      · obtain rfl | hrest := List.mem_cons.1 h
        · exact .inr List.mem_cons_self
        · exact (ih hrest).imp_right (List.mem_cons_of_mem _)

/-- Setting an option keeps the order. -/
theorem Ordered.insert (h : Ordered o) (hvalue : value.Ordered) :
    Ordered (Options.insert key value o) := by
  induction o with
  | nil => exact ⟨by simp, hvalue, trivial⟩
  | cons first rest ih =>
    obtain ⟨k, v⟩ := first
    obtain ⟨hfirst, hv, hrest⟩ := h
    unfold Options.insert
    split
    · next hlt =>
      refine ⟨fun entry hentry => ?_, hvalue, hfirst, hv, hrest⟩
      obtain rfl | hentry := List.mem_cons.1 hentry
      · exact hlt
      · exact hlt.trans (hfirst entry hentry)
    · next hlt =>
      split
      · next heq => exact ⟨heq ▸ hfirst, hvalue, hrest⟩
      · next hne =>
        refine ⟨fun entry hentry => ?_, hv, ih hrest⟩
        obtain rfl | hentry := mem_insert hentry
        · exact lt_of_le_of_ne (not_lt.1 hlt) (Ne.symm hne)
        · exact hfirst entry hentry

/-- Erasing an option keeps the order. -/
theorem Ordered.erase (h : Ordered o) (key : String) : Ordered (Options.erase o key) := by
  induction o with
  | nil => trivial
  | cons first rest ih =>
    obtain ⟨k, v⟩ := first
    obtain ⟨hfirst, hv, hrest⟩ := h
    unfold Options.erase at ih ⊢
    rw [List.filter_cons]
    split
    · exact ⟨fun entry hentry => hfirst entry (List.mem_of_mem_filter hentry), hv, ih hrest⟩
    · exact ih hrest

theorem ne_of_mem_erase {entry : String × OptionValue} (h : entry ∈ erase o key) :
    entry.1 ≠ key := by
  simpa using (List.mem_filter.1 h).2

theorem erase_of_ne (h : ∀ entry ∈ o, entry.1 ≠ key) : erase o key = o :=
  List.filter_eq_self.2 fun entry hentry => by simpa using h entry hentry

theorem find?_eq_none (h : ∀ entry ∈ o, entry.1 ≠ key) : find? o key = none := by
  simpa [find?] using h

/-- An option that has been set is found. -/
theorem find?_insert (o : Options) (key : String) (value : OptionValue) :
    find? (insert key value o) key = some value := by
  induction o with
  | nil => simp [insert, find?]
  | cons first rest ih =>
    obtain ⟨k, v⟩ := first
    unfold insert
    split
    · simp [find?]
    · split
      · simp [find?]
      · next hne => simpa [find?, Ne.symm hne] using ih

/-- An option that was not there can be set and erased again. -/
theorem erase_insert (h : ∀ entry ∈ o, entry.1 ≠ key) (value : OptionValue) :
    erase (insert key value o) key = o := by
  induction o with
  | nil => simp [insert, erase]
  | cons first rest ih =>
    obtain ⟨k, v⟩ := first
    have hk : k ≠ key := h (k, v) List.mem_cons_self
    have hrest : ∀ entry ∈ rest, entry.1 ≠ key := fun e he => h e (List.mem_cons_of_mem _ he)
    unfold insert
    split
    · rw [erase, List.filter_cons_of_neg (by simp)]
      exact erase_of_ne h
    · rw [if_neg hk.symm, erase, List.filter_cons_of_pos (by simpa using hk)]
      exact congrArg _ (ih hrest)

theorem insert_of_lt (h : ∀ entry ∈ o, key < entry.1) (value : OptionValue) :
    insert key value o = (key, value) :: o := by
  cases o with
  | nil => rfl
  | cons first rest => exact if_pos (h first List.mem_cons_self)

/-- What an option was before it is set makes no difference. -/
theorem insert_erase (h : Ordered o) (key : String) (value : OptionValue) :
    insert key value (erase o key) = insert key value o := by
  induction o with
  | nil => rfl
  | cons first rest ih =>
    obtain ⟨k, v⟩ := first
    obtain ⟨hfirst, -, hrest⟩ := h
    by_cases heq : k = key
    · subst heq
      have herase : erase ((k, v) :: rest) k = rest := by
        rw [erase, List.filter_cons_of_neg (by simp)]
        exact erase_of_ne fun entry hentry => (hfirst entry hentry).ne'
      rw [herase, insert_of_lt hfirst]
      simp [insert]
    · have herase : erase ((k, v) :: rest) key = (k, v) :: erase rest key :=
        List.filter_cons_of_pos (by simpa using heq)
      rw [herase]
      unfold insert
      split
      · next hlt =>
        have hne : ∀ entry ∈ rest, entry.1 ≠ key :=
          fun entry hentry => (hlt.trans (hfirst entry hentry)).ne'
        rw [erase_of_ne hne]
      · rw [if_neg (Ne.symm heq), if_neg (Ne.symm heq), ih hrest]

end Options

/-! ## Saved form -/

mutual

/-- A value comes back from its saved form. -/
theorem OptionValue.ofJson?_toJson (value : OptionValue) (h : value.Ordered) :
    OptionValue.ofJson? value.toJson = some value := by
  cases value with
  | item text => rfl
  | list values =>
    rw [OptionValue.toJson, OptionValue.ofJson?, OptionValue.listOfJson?_listToJson values h]
    rfl
  | dict entries =>
    rw [OptionValue.toJson, OptionValue.ofJson?, OptionValue.entriesOfJson?_entriesToJson entries h]
    rfl

theorem OptionValue.listOfJson?_listToJson (values : List OptionValue)
    (h : OptionValue.ListOrdered values) :
    OptionValue.listOfJson? (OptionValue.listToJson values) = some values := by
  cases values with
  | nil => rfl
  | cons value rest =>
    rw [OptionValue.listToJson, OptionValue.listOfJson?, OptionValue.ofJson?_toJson value h.1,
      OptionValue.listOfJson?_listToJson rest h.2]
    rfl

theorem OptionValue.entriesOfJson?_entriesToJson (entries : List (String × OptionValue))
    (h : OptionValue.EntriesOrdered entries) :
    OptionValue.entriesOfJson? (OptionValue.entriesToJson entries) = some entries := by
  cases entries with
  | nil => rfl
  | cons entry rest =>
    obtain ⟨key, value⟩ := entry
    obtain ⟨hkey, hvalue, hrest⟩ := h
    have hnone : Options.find? rest key = none :=
      Options.find?_eq_none fun entry hentry => (hkey entry hentry).ne'
    rw [OptionValue.entriesToJson, OptionValue.entriesOfJson?,
      OptionValue.ofJson?_toJson value hvalue,
      OptionValue.entriesOfJson?_entriesToJson rest hrest]
    simp [hnone, Options.insert_of_lt hkey]

end

mutual

/-- Whatever is read from saved data is in order. -/
theorem OptionValue.ordered_of_ofJson? (j : Json) {value : OptionValue}
    (h : OptionValue.ofJson? j = some value) : value.Ordered := by
  cases j with
  | string text =>
    cases h
    trivial
  | array elements =>
    obtain ⟨values, hvalues, rfl⟩ := Option.map_eq_some_iff.1 h
    exact OptionValue.ordered_of_listOfJson? elements hvalues
  | object fields =>
    obtain ⟨entries, hentries, rfl⟩ := Option.map_eq_some_iff.1 h
    exact OptionValue.ordered_of_entriesOfJson? fields hentries
  | null | bool | number | fraction => cases h

theorem OptionValue.ordered_of_listOfJson? (elements : List Json) {values : List OptionValue}
    (h : OptionValue.listOfJson? elements = some values) : OptionValue.ListOrdered values := by
  cases elements with
  | nil =>
    cases h
    trivial
  | cons j rest =>
    obtain ⟨value, hvalue, h⟩ := Option.bind_eq_some_iff.1 h
    obtain ⟨values', hvalues, h⟩ := Option.bind_eq_some_iff.1 h
    cases h
    exact ⟨OptionValue.ordered_of_ofJson? j hvalue, OptionValue.ordered_of_listOfJson? rest hvalues⟩

theorem OptionValue.ordered_of_entriesOfJson? (fields : List (String × Json)) {o : Options}
    (h : OptionValue.entriesOfJson? fields = some o) : Options.Ordered o := by
  cases fields with
  | nil =>
    cases h
    trivial
  | cons field rest =>
    obtain ⟨value, hvalue, h⟩ := Option.bind_eq_some_iff.1 h
    obtain ⟨entries, hentries, h⟩ := Option.bind_eq_some_iff.1 h
    have hordered := OptionValue.ordered_of_entriesOfJson? rest hentries
    cases h
    split
    · exact hordered
    · exact hordered.insert (OptionValue.ordered_of_ofJson? field.2 hvalue)

end

/-- What a project saves comes back from its saved form, also without options. -/
theorem SavedArchitecture.ofJson?_toJson (s : SavedArchitecture) (h : Options.Ordered s.options) :
    SavedArchitecture.ofJson? s.toJson = some s := by
  obtain ⟨name, options⟩ := s
  cases options with
  | nil => rfl
  | cons entry rest =>
    have hentries := OptionValue.entriesOfJson?_entriesToJson (entry :: rest) h
    simp [toJson, ofJson?, optionsOfJson?, Json.string?, hentries]

theorem SavedArchitecture.ordered_of_optionsOfJson? {field : Option Json} {o : Options}
    (h : SavedArchitecture.optionsOfJson? field = some o) : Options.Ordered o := by
  unfold optionsOfJson? at h
  split at h
  · cases h
    trivial
  · exact OptionValue.ordered_of_entriesOfJson? _ h
  · cases h

/-- The options that are read with a saved architecture are in order. -/
theorem SavedArchitecture.ordered_of_ofJson? {j : Json} {s : SavedArchitecture}
    (h : SavedArchitecture.ofJson? j = some s) : Options.Ordered s.options := by
  unfold ofJson? at h
  split at h
  · obtain ⟨name, -, h⟩ := Option.bind_eq_some_iff.1 h
    obtain ⟨options, hoptions, h⟩ := Option.bind_eq_some_iff.1 h
    cases h
    exact ordered_of_optionsOfJson? hoptions
  · obtain ⟨name, -, h⟩ := Option.bind_eq_some_iff.1 h
    cases h
    trivial
  · obtain ⟨name, -, h⟩ := Option.bind_eq_some_iff.1 h
    obtain ⟨options, hoptions, h⟩ := Option.bind_eq_some_iff.1 h
    cases h
    exact ordered_of_optionsOfJson? hoptions
  · cases h

end CodeLift
