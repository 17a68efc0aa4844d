import SlotSafe.Moment
import SlotSafe.Text.Unpaired

/-!
# Documents

A document is what a JSON or YAML file holds: nothing, a truth value, a number, a text, octets, a
moment, a list of documents, a map from documents to documents, or a set. Maps keep the order in
which their keys were first written. A text is made of characters. The content of a source, whose
octets are asked for, may hold surrogates instead of some of them.

A file can hold one list in several places, and a list can even hold itself. So everything that is
made of parts has an **identity**: the number of the reading that it comes from and its own number
there. Documents of one identity are the same document. What the program makes itself stands in one
place only and needs no identity. A document that holds itself is written as a knot, whose body goes
back to the whole by `loop`; `unrolled` opens a knot by one turn.

Two documents are equal when they are the same number, whatever its form (a truth value counts as
one or zero), the same text, octets or moment, lists of equal documents, or maps with equal entries
in any order. The value that is no number equals nothing, itself included, but a list that holds it
equals itself: parts are compared by `same`, which asks for one identity or for equality. What can
stand as the key of a map is decided by `Document.key?`, which gives one key to documents that are
the same, and none to lists, maps and sets.
-/

namespace SlotSafe

/-- Which one of all things that were read a document is. What is shared by all readings has the
reading zero. -/
structure Identity where
  reading : Nat
  number : Nat
  deriving DecidableEq, Repr

/-- A document. -/
inductive Document where
  | null
  | bool (b : Bool)
  | int (n : Int)
  | float (x : Binary64)
  /-- The value of a number that is none. -/
  | nan (id : Identity)
  | text (s : String)
  /-- The content of a source in which surrogates stand without their partners. -/
  | unpaired (u : Text.Unpaired)
  | octets (bytes : List UInt8)
  | moment (id : Identity) (m : Moment)
  /-- Two documents in a row, as they stand in an ordered list of entries. -/
  | pair (first second : Document)
  | list (id : Option Identity) (items : List Document)
  | map (id : Option Identity) (entries : List (Document × Document))
  | set (id : Identity) (members : List Document)
  /-- A list or map that holds itself. -/
  | knot (id : Identity) (body : Document)
  /-- The knot around this place. -/
  | loop (id : Identity)
  deriving Inhabited

/-- What a document is looked up by: documents that are the same have one key. -/
inductive Key where
  | null
  /-- Integers, whatever the form of the number. -/
  | int (n : Int)
  /-- Numbers that are no integer, by their bits. -/
  | real (bits : UInt64)
  | nan (id : Identity)
  | text (s : String)
  | unpaired (u : Text.Unpaired)
  | octets (bytes : List UInt8)
  | moment (m : Moment)
  /-- Moments whose distance from universal time is known. -/
  | instant (microseconds : Int)
  | pair (first second : Key)
  deriving DecidableEq, Repr

namespace Document

/-! ## Making documents -/

/-- A list that stands in one place. -/
def row (items : List Document) : Document := .list none items

/-- A map that stands in one place, with names as keys. -/
def record (fields : List (String × Document)) : Document :=
  .map none (fields.map fun field => (.text field.1, field.2))

/-- A number, under the identity that it has if it is none. -/
def ofReal (id : Identity) (x : Binary64) : Document := if x.isNaN then .nan id else .float x

/-! ## Identity -/

/-- The identity of a document that has one. -/
def identity? : Document → Option Identity
  | nan id => some id
  | moment id _ => some id
  | list id _ => id
  | map id _ => id
  | set id _ => some id
  | knot id _ => some id
  | loop id => some id
  | _ => none

/-- Whether two documents have one identity. -/
def is (a b : Document) : Bool := a.identity?.isSome && a.identity? == b.identity?

mutual

/-- Puts a document in all places that go back to an identity. -/
def tie (id : Identity) (whole : Document) : Document → Document
  | loop i => if i = id then whole else loop i
  | pair a b => pair (tie id whole a) (tie id whole b)
  | list i items => list i (tieItems id whole items)
  | map i entries => map i (tieEntries id whole entries)
  | knot i body => if i = id then knot i body else knot i (tie id whole body)
  | d => d

/-- Puts a document in all places of items that go back to an identity. -/
def tieItems (id : Identity) (whole : Document) : List Document → List Document
  | [] => []
  | d :: rest => tie id whole d :: tieItems id whole rest

/-- Puts a document in all places of entries that go back to an identity. -/
def tieEntries (id : Identity) (whole : Document) :
    List (Document × Document) → List (Document × Document)
  | [] => []
  | (k, d) :: rest => (k, tie id whole d) :: tieEntries id whole rest

end

/-- The list or map that a knot is, its parts holding the whole knot. -/
def unrolled : Document → Document
  | knot id body => tie id (knot id body) body
  | d => d

/-! ## Keys -/

/-- The key of a number. -/
def numberKey? (x : Binary64) : Option Key :=
  match x.toInt? with
  | some n => some (.int n)
  | none => if x.isNaN then none else some (.real x.bits)

/-- The key of a moment. -/
def momentKey (m : Moment) : Key :=
  match m.instant? with
  | some microseconds => .instant microseconds
  | none => .moment m

/-- The key of a document, if it can be found by one. -/
def key? : Document → Option Key
  | null => some .null
  | bool b => some (.int (if b then 1 else 0))
  | int n => some (.int n)
  | float x => numberKey? x
  | nan id => some (.nan id)
  | text s => some (.text s)
  | unpaired u => some (.unpaired u)
  | octets bytes => some (.octets bytes)
  | moment _ m => some (momentKey m)
  | pair a b => match a.key?, b.key? with
    | some k, some l => some (.pair k l)
    | _, _ => none
  | _ => none

/-- Whether a document may stand as the key of a map. -/
def isKey (d : Document) : Bool := d.key?.isSome

/-- Whether two documents are found by the same key. -/
def sameKey (a b : Document) : Bool :=
  match a.key?, b.key? with
  | some k, some l => k == l
  | _, _ => false

/-! ## Equality -/

mutual

/-- Equality of documents. A document that holds itself equals itself alone: compared with another
one that goes on like it, it would never be told apart from it, which `comparesWithin` tells. -/
def equal : Document → Document → Bool
  | pair a b, other => match other with
    | pair c d => (a.is c || equal a c) && (b.is d || equal b d)
    | _ => false
  | list id xs, other => match other with
    | list _ ys => equalItems xs ys
    | _ => is (list id xs) other
  | map id xs, other => match other with
    | map _ ys => xs.length == ys.length && entriesWithin xs ys
    | _ => is (map id xs) other
  | set _ xs, other => match other with
    | set _ ys => xs.length == ys.length && xs.all fun x => ys.any (sameKey x)
    | _ => false
  | nan _, _ => false
  | knot id body, other => is (knot id body) other
  | a, b => sameKey a b

/-- Equality of lists, item by item. -/
def equalItems : List Document → List Document → Bool
  | [], ys => ys.isEmpty
  | x :: xs, ys => match ys with
    | y :: ys => (x.is y || equal x y) && equalItems xs ys
    | [] => false

/-- Whether every entry of the first map has an equal one in the second. -/
def entriesWithin : List (Document × Document) → List (Document × Document) → Bool
  | [], _ => true
  | (k, v) :: rest, ys =>
    ys.any (fun entry => sameKey k entry.1 && (v.is entry.2 || equal v entry.2))
      && entriesWithin rest ys

end

instance : BEq Document := ⟨equal⟩

/-- Whether two documents count as one where they are parts of something else. -/
def same (a b : Document) : Bool := a.is b || a == b

/-- Whether parts that stand side by side are compared without trouble, up to the first two that
differ. -/
def partsCompare (compares : Document → Document → Bool) : List (Document × Document) → Bool
  | [] => true
  | (x, y) :: rest =>
    if x.is y then partsCompare compares rest
    else compares x y && (!x.equal y || partsCompare compares rest)

/-- The values of a map, each beside the value under the same key of another map, up to the first
key that the other map lacks. -/
def valuesBeside (ys : List (Document × Document)) :
    List (Document × Document) → List (Document × Document)
  | [] => []
  | (k, v) :: rest => match ys.find? fun y => sameKey k y.1 with
    | some y => (v, y.2) :: valuesBeside ys rest
    | none => []

/-- Whether two documents are told to be equal or not before the comparison has gone down to the
given depth. -/
def comparesWithin : (depth : Nat) → Document → Document → Bool
  | 0, _, _ => false
  | depth + 1, a, b => match a.unrolled, b.unrolled with
    | pair a b, pair c d => partsCompare (comparesWithin depth) [(a, c), (b, d)]
    | list _ xs, list _ ys =>
      xs.length != ys.length || partsCompare (comparesWithin depth) (xs.zip ys)
    | map _ xs, map _ ys =>
      xs.length != ys.length || partsCompare (comparesWithin depth) (valuesBeside ys xs)
    | _, _ => true

/-! ## Simple questions -/

/-- Whether a document says something: null, false, zero and whatever is empty do not. -/
def isSet : Document → Bool
  | null => false
  | bool b => b
  | int n => n != 0
  | float x => !x.isZero
  | text s => !s.isEmpty
  | octets bytes => !bytes.isEmpty
  | list _ xs => !xs.isEmpty
  | map _ xs => !xs.isEmpty
  | set _ xs => !xs.isEmpty
  | _ => true

/-- A text, or nothing. -/
def text? : Document → Option String
  | text s => some s
  | _ => none

/-- Whether a document is a text. -/
def isText (d : Document) : Bool := d.text?.isSome

/-- Whether a document is a map. -/
def isMap (d : Document) : Bool :=
  match d.unrolled with
  | map _ _ => true
  | _ => false

theorem isKey_of_sameKey {a b : Document} (h : a.sameKey b = true) : a.isKey = true := by
  unfold sameKey at h
  split at h
  · next ha _ => simp [isKey, ha]
  · simp at h

@[simp] theorem key?_text (s : String) : (text s).key? = some (.text s) := rfl

@[simp] theorem sameKey_text (s t : String) : sameKey (text s) (text t) = (s == t) := by
  rw [Bool.eq_iff_iff]; simp [sameKey]

@[simp] theorem text_beq_text (s t : String) : (text s == text t) = (s == t) :=
  sameKey_text s t

@[simp] theorem isMap_map (id : Option Identity) (entries : List (Document × Document)) :
    (map id entries).isMap = true := rfl

end Document

end SlotSafe
