-- SUMMARY: Whatever options are loaded, what an architecture saves restores it.
import CodeLift.Proofs.Options
import CodeLift.Registry

/-!
# Restoring architectures

Options are loaded in place, one set after another, and any of these loads may fail. Whatever has
been loaded, mode, processor and saved options agree: the two are only ever changed together, a
failed load changes nothing, and the option that holds the mode is never among those that are kept
(`Architecture.Loaded.settled`). So
what an architecture saves gives it back (`Architecture.Settled.restore_saved`).
-/

namespace CodeLift

namespace Architecture

variable {a b : Architecture} {options : Options}

/-! ## Loading -/

/-- The mode that options ask for, or the present one if they do not say. -/
def modeIn? (a : Architecture) (options : Options) : Option X86.Mode :=
  match Options.find? options modeOption with
  | some value => value.item?.bind X86.Mode.ofOption?
  | none => some a.mode

/-- The architecture in a mode, with its processor. -/
def inMode (a : Architecture) (mode : X86.Mode) : Architecture :=
  { a with toVariant := .of mode }

theorem inMode_self (h : a.processor = X86.processor a.mode) : a.inMode a.mode = a := by
  rw [inMode, X86.Variant.of, ← h]

theorem on_setMode (a : Architecture) (mode : X86.Mode) :
    (setMode mode).on a = (.ok (), a.inMode mode) := rfl

/-- Either the mode is set and all other options are kept, or nothing is changed. -/
theorem on_load (hfull : a.support = .full) (hagrees : a.processor = X86.processor a.mode)
    (options : Options) :
    (load options).on a =
      match a.modeIn? options with
      | some mode => (.ok (), { a.inMode mode with kept := Options.erase options modeOption })
      | none => (.error (.invalidOption modeOption "expected real16 or protected32"), a) := by
  have hisFull : a.isFull = true := by rw [isFull, hfull]; rfl
  unfold load modeIn?
  rw [InPlace.on_bind_of_ok (InPlace.on_get a), if_pos hisFull]
  cases Options.find? options modeOption with
  | none =>
    dsimp only
    rw [inMode_self hagrees]
    rfl
  | some value =>
    dsimp only
    cases value.item?.bind X86.Mode.ofOption? with
    | none => rfl
    | some mode => exact InPlace.on_bind_of_ok (on_setMode a mode)

/-- The architectures of the registry, and what becomes of them when options are loaded, whether
that succeeds or not. -/
inductive Loaded : Architecture → Prop
  | create {name : String} {a : Architecture} (hcreate : Registry.builtin.create name = .ok a) :
      Loaded a
  | step {a b : Architecture} {options : Options} {result : Except ArchitectureError Unit}
      (ha : Loaded a) (hoptions : Options.Ordered options)
      (hload : (load options).on a = (result, b)) : Loaded b

/-- The processor is that of the mode, and the kept options are a dictionary, without the option
that holds the mode. -/
structure Settled (a : Architecture) : Prop where
  full : a.support = .full
  agrees : a.processor = X86.processor a.mode
  ordered : Options.Ordered a.kept
  foreign : ∀ entry ∈ a.kept, entry.1 ≠ modeOption

theorem settled_of_create {name : String} (h : Registry.builtin.create name = .ok a) :
    a.Settled := by
  unfold Registry.create at h
  split at h
  · cases h
    exact ⟨rfl, rfl, trivial, by simp⟩
  · cases h

/-- A load that succeeds sets the mode that is asked for, and keeps all other options. -/
theorem Settled.step (ha : a.Settled) (hoptions : Options.Ordered options)
    {result : Except ArchitectureError Unit} (hload : (load options).on a = (result, b)) :
    b.Settled ∧ (∀ e, result = .error e → b = a) ∧
      (result = .ok () ↔ a.modeIn? options = some b.mode) ∧
      (result = .ok () →
        b.saveOptions = Options.insert modeOption (.item b.mode.optionValue) options) := by
  rw [on_load ha.full ha.agrees] at hload
  cases hmode : a.modeIn? options with
  | some mode =>
    rw [hmode] at hload
    cases hload
    have hkept : Settled { a.inMode mode with kept := Options.erase options modeOption } :=
      ⟨ha.full, rfl, hoptions.erase modeOption, fun _ => Options.ne_of_mem_erase⟩
    refine ⟨hkept, nofun, iff_of_true rfl rfl, fun _ => ?_⟩
    rw [saveOptions, isFull, hkept.full]
    exact Options.insert_erase hoptions modeOption _
  | none =>
    rw [hmode] at hload
    cases hload
    exact ⟨ha, fun _ _ => rfl, iff_of_false nofun nofun, nofun⟩

theorem Loaded.settled (ha : a.Loaded) : a.Settled := by
  induction ha with
  | create hcreate => exact settled_of_create hcreate
  | step _ hoptions hload ih => exact (ih.step hoptions hload).1

/-! ## Saving and restoring -/

theorem Settled.saveOptions_eq (ha : a.Settled) :
    a.saveOptions = Options.insert modeOption (.item a.mode.optionValue) a.kept := by
  rw [saveOptions, isFull, ha.full]
  rfl

theorem Settled.find?_saveOptions (ha : a.Settled) :
    Options.find? a.saveOptions modeOption = some (.item a.mode.optionValue) := by
  rw [ha.saveOptions_eq]
  exact Options.find?_insert ..

theorem Settled.name_eq (ha : a.Settled) : a.name = a.mode.architectureName := by
  rw [name, ha.agrees]
  cases a.mode <;> rfl

theorem create_architectureName (mode : X86.Mode) :
    Registry.builtin.create mode.architectureName = .ok ⟨mode, .full, []⟩ := by
  cases mode <;> rfl

/-- What an architecture saves restores it. -/
theorem Settled.restore_saved (ha : a.Settled) : Registry.builtin.restore a.saved = .ok a := by
  let fresh : Architecture := ⟨a.mode, .full, []⟩
  have hmode : fresh.modeIn? a.saveOptions = some a.mode := by
    rw [modeIn?, ha.find?_saveOptions]
    exact a.mode.ofOption?_optionValue
  have hkept : Options.erase a.saveOptions modeOption = a.kept := by
    rw [ha.saveOptions_eq]
    exact Options.erase_insert ha.foreign _
  have hback : ({ fresh.inMode a.mode with kept := a.kept } : Architecture) = a := by
    change ({ a.inMode a.mode with support := .full } : Architecture) = a
    rw [inMode_self ha.agrees, ← ha.full]
  rw [Registry.restore, saved, ha.name_eq, create_architectureName]
  have hload : (load a.saveOptions).on fresh = (.ok (), a) := by
    rw [on_load rfl rfl, hmode, hkept]
    exact congrArg (Except.ok (), ·) hback
  change fresh.loadOptions a.saveOptions = .ok a
  rw [loadOptions, InPlace.attempt_of_ok hload]
  rfl

/-- An architecture that is restored from saved data is one that loading can make. -/
theorem loaded_of_restore {j : Json} {s : SavedArchitecture}
    (hs : SavedArchitecture.ofJson? j = some s) (ha : Registry.builtin.restore s = .ok a) :
    a.Loaded := by
  unfold Registry.restore at ha
  cases hcreate : Registry.builtin.create s.name with
  | error e =>
    rw [hcreate] at ha
    cases ha
  | ok created =>
    rw [hcreate] at ha
    change created.loadOptions s.options = .ok a at ha
    cases hload : (load s.options).on created with
    | mk result loaded =>
      cases result with
      | error e =>
        rw [loadOptions, InPlace.attempt_of_error hload] at ha
        cases ha
      | ok =>
        rw [loadOptions, InPlace.attempt_of_ok hload] at ha
        cases ha
        exact .step (.create hcreate) (SavedArchitecture.ordered_of_ofJson? hs) hload

/-- Whatever options have been loaded, with or without success, name and processor are those of the
mode, and the saved options hold its word. A load that fails leaves the architecture as it was;
after one that succeeds, the options with the word of the mode among them are saved. What is saved
comes back from its saved form, and restores an architecture that saves the same. -/
theorem Loaded.restores (ha : a.Loaded) :
    a.name = a.mode.architectureName ∧ a.processor = X86.processor a.mode ∧
      Options.find? a.saveOptions modeOption = some (.item a.mode.optionValue) ∧
      (∀ options, Options.Ordered options → ∀ result b, (load options).on a = (result, b) →
        (∀ e, result = .error e → b = a) ∧
        (result = .ok () ↔ a.modeIn? options = some b.mode) ∧
        (result = .ok () →
          b.saveOptions = Options.insert modeOption (.item b.mode.optionValue) options)) ∧
      (∀ s : SavedArchitecture, Options.Ordered s.options →
        SavedArchitecture.ofJson? s.toJson = some s) ∧
      ∃ s b, SavedArchitecture.ofJson? a.saved.toJson = some s ∧
        Registry.builtin.restore s = .ok b ∧ b.saved = a.saved := by
  have hsettled := ha.settled
  refine ⟨hsettled.name_eq, hsettled.agrees, hsettled.find?_saveOptions,
    fun options hoptions result b hload => (hsettled.step hoptions hload).2,
    SavedArchitecture.ofJson?_toJson, a.saved, a, ?_, hsettled.restore_saved, rfl⟩
  refine SavedArchitecture.ofJson?_toJson _ ?_
  change Options.Ordered a.saveOptions
  rw [hsettled.saveOptions_eq]
  exact hsettled.ordered.insert trivial

/-- Options for protected mode with a dictionary among them are loaded in real mode, and then a mode
that there is not: what is saved behind both restores protected mode and the dictionary. -/
theorem restores_nested_options :
    let real : Architecture := ⟨.real16, .full, []⟩
    let colors : String × OptionValue := ("colors", .dict [("code", .list [.item "red", .dict []])])
    let a : Architecture := ⟨.protected32, .full, [colors]⟩
    Registry.builtin.create "x86-real-16" = .ok real ∧
      (load [colors, ("mode", .item "Protected")]).on real = (.ok (), a) ∧
      (∃ e, (load [("mode", .item "64")]).on a = (.error e, a)) ∧
      ∃ s b, SavedArchitecture.ofJson? a.saved.toJson = some s ∧
        Registry.builtin.restore s = .ok b ∧ b.saved = a.saved := by
  intro real colors a
  have hcreate : Registry.builtin.create "x86-real-16" = .ok real := rfl
  have hload : (load [colors, ("mode", .item "Protected")]).on real = (.ok (), a) := by
    have hmode : real.modeIn? [colors, ("mode", .item "Protected")] = some .protected32 := by decide
    rw [on_load rfl rfl, hmode]
    rfl
  have hfails : (load [("mode", .item "64")]).on a =
      (.error (.invalidOption "mode" "expected real16 or protected32"), a) := by
    have hmode : a.modeIn? [("mode", .item "64")] = none := by decide
    rw [on_load rfl rfl, hmode]
    rfl
  have hkeys : "colors" < "mode" := by decide +kernel
  have hcolors : colors.2.Ordered := ⟨by simp, ⟨trivial, trivial, trivial⟩, trivial⟩
  have hordered : Options.Ordered [colors, ("mode", .item "Protected")] := by
    refine ⟨fun entry hentry => ?_, hcolors, by simp, trivial, trivial⟩
    rw [List.mem_singleton.1 hentry]
    exact hkeys
  have hordered' : Options.Ordered [("mode", .item "64")] := ⟨by simp, trivial, trivial⟩
  have ha : a.Loaded := .step (.step (.create hcreate) hordered hload) hordered' hfails
  exact ⟨hcreate, hload, ⟨_, hfails⟩, ha.restores.2.2.2.2.2⟩

end Architecture

end CodeLift
