-- SUMMARY: The instructions that a lift takes one at a time.
import CodeLift.Event
import CodeLift.Image.Reader
import CodeLift.X86.Decoder

/-!
# Feeds

A feed gives instructions one at a time, from a list or decoded from an image.
Where bytes do not decode, the feed gives the error and goes on one byte later.
Every instruction decoded is reported.
-/

namespace CodeLift.X86

/-- What stands at a place of a feed. -/
abbrev Item := Except DecodeError Instruction

inductive Feed where
  | items (list : List Item)
  | code (mode : Mode) (reader : Reader)

/-- An item taken off a feed. -/
structure Taken where
  item : Item
  events : List Event
  rest : Feed

namespace Feed

def next? : Feed → Option Taken
  | .items [] => none
  | .items (item :: rest) => some ⟨item, [], .items rest⟩
  | .code mode r =>
    if r.hasMore then
      match decode mode r.address (r.peek maxLength) with
      | .ok i =>
        let rest := { r with position := r.position + i.length }
        some ⟨.ok i, [.trace .decoder i.render], .code mode rest⟩
      | .error e => some ⟨.error e, [], .code mode { r with position := r.position + 1 }⟩
    else none

/-- An upper bound on the number of items to come. -/
def size : Feed → Nat
  | .items list => list.length
  | .code _ r => r.remaining

/-- At most `n` items, with what is reported while they are taken. -/
def take : Nat → Feed → List Item × List Event
  | 0, _ => ([], [])
  | n + 1, feed =>
    match feed.next? with
    | none => ([], [])
    | some taken =>
      let (list, events) := take n taken.rest
      (taken.item :: list, taken.events ++ events)

end Feed

end CodeLift.X86
