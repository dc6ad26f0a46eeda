-- SUMMARY: A frame has one lasting identifier for each location and width that it was asked for.
import CodeLift.Frame
import Mathlib.Data.List.Basic
import Mathlib.Data.List.Perm.Basic

/-!
# Identifiers

A frame is asked for registers, flag groups and stack slots at a width. Either there is an
identifier already and nothing changes, or one is made and put at the end of the list
(`Frame.ensure_cases`). So there is never more than one for a location and width, and each is
named after its location alone (`Frame.Orderly`).

What a frame has been asked for, in whatever order and how often, is then what it has
identifiers for, and these last (`Frame.identifiers_stable`).
-/

namespace CodeLift

/-- The identifier stands for the location at the width. -/
def Identifier.StandsFor (id : Identifier) (storage : Storage) (bits : Nat) : Prop :=
  id.storage = storage ∧ id.bits = bits

/-! ## Requests -/

/-- What a frame can be asked for. -/
inductive Frame.Request where
  | register (r : Register)
  | flags (g : FlagGroup)
  | stackLocal (offset : Int) (bits : Nat)
  | stackArgument (offset : Int) (bits : Nat)

namespace Frame.Request

def storage : Request → Storage
  | .register r => .register r
  | .flags g => .flags g
  | .stackLocal offset _ => .stackLocal offset
  | .stackArgument offset _ => .stackArgument offset

def bits : Request → Nat
  | .register r => r.bits
  | .flags _ => 1
  | .stackLocal _ bits | .stackArgument _ bits => bits

/-- The identifier of what is asked for. -/
def identifier (r : Request) : Identifier := ⟨r.storage.name, r.bits, r.storage⟩

end Frame.Request

namespace Frame

/-- The frame behind a request. -/
def ask (f : Frame) : Request → Frame
  | .register r => f.addRegister r
  | .flags g => f.addFlags g
  | .stackLocal offset bits => f.addLocal offset bits
  | .stackArgument offset bits => f.addArgument offset bits

/-- The frame behind requests, one after the other. -/
def askAll (f : Frame) (requests : List Request) : Frame := requests.foldl ask f

theorem ask_eq (f : Frame) (r : Request) : f.ask r = f.add r.storage r.bits := by
  cases r <;> rfl

variable {f : Frame} {storage : Storage} {bits : Nat} {id : Identifier}

/-! ## Asking once -/

theorem of_find?_eq_some (h : f.find? storage bits = some id) :
    id ∈ f.identifiers ∧ id.StandsFor storage bits := by
  have hfound := List.find?_some h
  rw [Bool.and_eq_true, beq_iff_eq, beq_iff_eq] at hfound
  exact ⟨List.mem_of_find?_eq_some h, hfound⟩

theorem of_find?_eq_none (h : f.find? storage bits = none) :
    ∀ id ∈ f.identifiers, ¬id.StandsFor storage bits := by
  intro id hid hstands
  refine List.find?_eq_none.1 h id hid ?_
  rwa [Bool.and_eq_true, beq_iff_eq, beq_iff_eq]

/-- An identifier is found or made, and nothing else happens. -/
theorem ensure_cases (f : Frame) (storage : Storage) (bits : Nat) :
    (∃ id ∈ f.identifiers, id.StandsFor storage bits ∧ f.ensure storage bits = (id, f)) ∨
      (∀ id ∈ f.identifiers, ¬id.StandsFor storage bits) ∧
        f.ensure storage bits = (⟨storage.name, bits, storage⟩,
          { f with identifiers := f.identifiers ++ [⟨storage.name, bits, storage⟩] }) := by
  unfold ensure
  cases hfind : f.find? storage bits with
  | some id =>
    obtain ⟨hid, hstands⟩ := of_find?_eq_some hfind
    exact .inl ⟨id, hid, hstands, rfl⟩
  | none => exact .inr ⟨of_find?_eq_none hfind, rfl⟩

theorem add_of_mem (hid : id ∈ f.identifiers) (hstands : id.StandsFor storage bits) :
    f.add storage bits = f := by
  rcases f.ensure_cases storage bits with ⟨_, -, -, hensure⟩ | ⟨hnone, -⟩
  · rw [add, hensure]
  · exact absurd hstands (hnone id hid)

theorem add_of_forall_not (hnone : ∀ id ∈ f.identifiers, ¬id.StandsFor storage bits) :
    f.add storage bits =
      { f with identifiers := f.identifiers ++ [⟨storage.name, bits, storage⟩] } := by
  rcases f.ensure_cases storage bits with ⟨id, hid, hstands, -⟩ | ⟨-, hensure⟩
  · exact absurd hstands (hnone id hid)
  · rw [add, hensure]

theorem prefix_add (f : Frame) (storage : Storage) (bits : Nat) :
    f.identifiers <+: (f.add storage bits).identifiers := by
  rcases f.ensure_cases storage bits with ⟨id, hid, hstands, -⟩ | ⟨hnone, -⟩
  · exact ⟨[], by rw [List.append_nil, add_of_mem hid hstands]⟩
  · exact ⟨_, by rw [add_of_forall_not hnone]⟩

theorem mem_add (h : id ∈ f.identifiers) (storage : Storage) (bits : Nat) :
    id ∈ (f.add storage bits).identifiers :=
  (f.prefix_add storage bits).subset h

/-- Asking for a location at a width makes an identifier for it, if there is none. -/
theorem exists_mem_add (f : Frame) (storage : Storage) (bits : Nat) :
    ∃ id ∈ (f.add storage bits).identifiers, id.StandsFor storage bits := by
  rcases f.ensure_cases storage bits with ⟨id, hid, hstands, -⟩ | ⟨hnone, -⟩
  · rw [add_of_mem hid hstands]
    exact ⟨id, hid, hstands⟩
  · rw [add_of_forall_not hnone]
    exact ⟨_, List.mem_append_right _ (List.mem_singleton_self _), rfl, rfl⟩

theorem of_mem_add (h : id ∈ (f.add storage bits).identifiers) :
    id ∈ f.identifiers ∨ id = ⟨storage.name, bits, storage⟩ := by
  rcases f.ensure_cases storage bits with ⟨_, hid, hstands, -⟩ | ⟨hnone, -⟩
  · rw [add_of_mem hid hstands] at h
    exact .inl h
  · rw [add_of_forall_not hnone] at h
    exact (List.mem_append.1 h).imp_right List.mem_singleton.1

/-! ## Orderly frames -/

/-- No two identifiers share both location and width, and each has the name of its location. -/
structure Orderly (f : Frame) : Prop where
  apart : f.identifiers.Pairwise fun id id' => ¬(id.storage = id'.storage ∧ id.bits = id'.bits)
  named : ∀ id ∈ f.identifiers, id.name = id.storage.name

theorem orderly_empty (wordBits : Nat) : (empty wordBits).Orderly := ⟨.nil, nofun⟩

theorem Orderly.add (h : f.Orderly) (storage : Storage) (bits : Nat) :
    (f.add storage bits).Orderly := by
  rcases f.ensure_cases storage bits with ⟨id, hid, hstands, -⟩ | ⟨hnone, -⟩
  · rwa [add_of_mem hid hstands]
  · rw [add_of_forall_not hnone]
    constructor
    case apart =>
      refine List.pairwise_append.2 ⟨h.apart, List.pairwise_singleton _ _, fun id hid => ?_⟩
      exact List.forall_mem_singleton.2 (hnone id hid)
    case named => exact List.forall_mem_append.2 ⟨h.named, List.forall_mem_singleton.2 rfl⟩

/-- What stands for a location at a width is the identifier that would be made for it. -/
theorem Orderly.eq_of_standsFor (h : f.Orderly) (hid : id ∈ f.identifiers)
    (hstands : id.StandsFor storage bits) : id = ⟨storage.name, bits, storage⟩ := by
  have hname := h.named id hid
  obtain ⟨name, bits', storage'⟩ := id
  obtain ⟨rfl, rfl⟩ := hstands
  exact congrArg (Identifier.mk · bits' storage') hname

theorem Orderly.nodup (h : f.Orderly) : f.identifiers.Nodup :=
  h.apart.imp fun happart heq => happart ⟨congrArg _ heq, congrArg _ heq⟩

theorem Orderly.mem_add_iff (h : f.Orderly) :
    id ∈ (f.add storage bits).identifiers ↔
      id ∈ f.identifiers ∨ id = ⟨storage.name, bits, storage⟩ := by
  refine ⟨of_mem_add, ?_⟩
  rintro (hold | rfl)
  · exact mem_add hold storage bits
  · obtain ⟨id, hid, hstands⟩ := f.exists_mem_add storage bits
    exact (h.add storage bits).eq_of_standsFor hid hstands ▸ hid

/-- The answer to a request is the identifier of what is asked for. It is the only one for this
location and width, and new only if there was none. -/
structure Answers (f : Frame) (r : Request) : Prop where
  ensure : f.ensure r.storage r.bits = (r.identifier, f.ask r)
  mem : r.identifier ∈ (f.ask r).identifiers
  unique : ∀ id ∈ (f.ask r).identifiers, id.StandsFor r.storage r.bits → id = r.identifier
  kept : (∃ id ∈ f.identifiers, id.StandsFor r.storage r.bits) → f.ask r = f
  made : (¬∃ id ∈ f.identifiers, id.StandsFor r.storage r.bits) →
    f.ask r = { f with identifiers := f.identifiers ++ [r.identifier] }

theorem Orderly.answers (h : f.Orderly) (r : Request) : f.Answers r := by
  have hask := h.add r.storage r.bits
  constructor
  case ensure =>
    rcases f.ensure_cases r.storage r.bits with ⟨id, hid, hstands, hensure⟩ | ⟨hnone, hensure⟩
    · rw [ask_eq, add_of_mem hid hstands, hensure, h.eq_of_standsFor hid hstands]
      rfl
    · rw [ask_eq, add_of_forall_not hnone, hensure]
      rfl
  case mem =>
    rw [ask_eq]
    exact h.mem_add_iff.2 (.inr rfl)
  case unique =>
    rw [ask_eq]
    exact fun id hid hstands => hask.eq_of_standsFor hid hstands
  case kept =>
    rintro ⟨id, hid, hstands⟩
    rw [ask_eq, add_of_mem hid hstands]
  case made =>
    intro hnone
    rw [ask_eq, add_of_forall_not fun id hid hstands => hnone ⟨id, hid, hstands⟩]
    rfl

/-! ## Asking again and again -/

theorem Orderly.askAll (h : f.Orderly) (requests : List Request) : (f.askAll requests).Orderly :=
  List.foldlRecOn requests ask h fun g hg r _ => by
    rw [ask_eq]
    exact hg.add r.storage r.bits

theorem prefix_askAll (f : Frame) (requests : List Request) :
    f.identifiers <+: (f.askAll requests).identifiers :=
  List.foldlRecOn (motive := fun g : Frame => f.identifiers <+: g.identifiers) requests ask
    (List.prefix_refl _) fun g hg r _ => by
      rw [ask_eq]
      exact hg.trans (g.prefix_add r.storage r.bits)

/-- What a frame has been asked for is what it has new identifiers for. -/
theorem Orderly.mem_askAll_iff (h : f.Orderly) (requests : List Request) :
    id ∈ (f.askAll requests).identifiers ↔
      id ∈ f.identifiers ∨ ∃ r ∈ requests, id = r.identifier := by
  induction requests generalizing f with
  | nil => simp [Frame.askAll]
  | cons r rest ih =>
    have hask : (f.ask r).Orderly := h.askAll [r]
    change id ∈ ((f.ask r).askAll rest).identifiers ↔ _
    rw [ih hask, ask_eq, h.mem_add_iff, List.exists_mem_cons_iff, or_assoc]
    rfl

theorem mem_askAll_empty_iff (wordBits : Nat) (requests : List Request) :
    id ∈ ((empty wordBits).askAll requests).identifiers ↔
      ∃ r ∈ requests, id = r.identifier := by
  rw [(orderly_empty wordBits).mem_askAll_iff]
  exact or_iff_right List.not_mem_nil

/-- Identifiers are stable. Whatever a new frame has been asked for, no two of its identifiers share
location and width, and the name of each is that of its location. Later requests only add at the end
of the list. A request is answered with the one identifier of what it asks for, which is added if it
is missing. The identifiers are those of what has been asked for, so requests in another order or
number have the same. -/
theorem identifiers_stable (wordBits : Nat) (asked : List Request) :
    let f := (empty wordBits).askAll asked
    f.Orderly ∧
      (∀ later, f.identifiers <+: (f.askAll later).identifiers) ∧
      (∀ r, f.Answers r) ∧
      (∀ id, id ∈ f.identifiers ↔ ∃ r ∈ asked, id = r.identifier) ∧
      ∀ asked', (∀ r, r ∈ asked' ↔ r ∈ asked) →
        ((empty wordBits).askAll asked').identifiers.Perm f.identifiers := by
  intro f
  have horderly : f.Orderly := (orderly_empty wordBits).askAll asked
  have horderly' := (orderly_empty wordBits).askAll
  refine ⟨horderly, f.prefix_askAll, horderly.answers,
    fun id => mem_askAll_empty_iff wordBits asked, fun asked' hsame => ?_⟩
  refine (List.perm_ext_iff_of_nodup (horderly' asked').nodup horderly.nodup).2 fun id => ?_
  rw [mem_askAll_empty_iff, mem_askAll_empty_iff]
  simp only [hsame]

/-- A local at two widths has two identifiers of one name. -/
theorem identifiers_stable_two_widths :
    let ax : Register := .root "ax" 0 .general 16
    let asked : List Request := [.stackLocal (-4) 32, .register ax, .stackLocal (-4) 16]
    let asked' : List Request :=
      [.stackLocal (-4) 16, .stackLocal (-4) 32, .register ax, .stackLocal (-4) 32]
    let f := (empty 32).askAll asked
    f.identifiers.map Identifier.name = ["loc04", "ax", "loc04"] ∧
      f.ask (.stackLocal (-4) 32) = f ∧
      ((empty 32).askAll asked').identifiers.Perm f.identifiers := by
  intro ax asked asked' f
  obtain ⟨-, -, hanswers, hmem, hperm⟩ := identifiers_stable 32 asked
  have hlocal : Request.identifier (.stackLocal (-4) 32) ∈ f.identifiers :=
    (hmem _).2 ⟨_, List.mem_cons_self, rfl⟩
  have hsame : ∀ r, r ∈ asked' ↔ r ∈ asked := fun r => by
    simp only [asked, asked', List.mem_cons, List.not_mem_nil, or_false]
    tauto
  exact ⟨by decide +kernel, (hanswers _).kept ⟨_, hlocal, rfl, rfl⟩, hperm asked' hsame⟩

end Frame

end CodeLift
