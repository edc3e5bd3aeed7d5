import CriticalSection.Verifier.Margins
import CriticalSection.Verifier.Pairing

/-!
# Overlaps

Two processes overlap in a log if a record of one of them (the intruder) stands between an entry
of the other (the holder) and the exit paired with it. How the records are interleaved is the shape
of the overlap. An overlap is genuine if it remains when every time is moved by its margin in the
direction that would excuse it:

    fully-nested    E1 .. Ex .. Sx .. S1      genuine if  Ex - dx > E1 + d1  or  Sx + dx < S1 - d1
    nested-open     E1 .. Ex .. S1 (.. Sx)    genuine if  S1 - d1 > Ex + dx
    partial-close   (Ex ..) E1 .. Sx .. S1    genuine if  E1 + d1 < Sx - dx
-/

set_option autoImplicit false

namespace CriticalSection

/-- How the records of two processes are interleaved. -/
inductive Shape
  /-- The intruder enters while the holder is inside, and does not leave before it. -/
  | nestedOpen
  /-- The intruder leaves while the holder is inside. -/
  | partialClose
  /-- The intruder enters and leaves while the holder is inside. -/
  | fullyNested
  deriving DecidableEq, Repr

/-- The name of a shape. -/
def Shape.name : Shape → String
  | .nestedOpen => "nested-open"
  | .partialClose => "partial-close"
  | .fullyNested => "fully-nested"

/-- A record of a log: the line it stands on and its time. -/
structure Mark where
  line : Nat
  time : Int64
  deriving DecidableEq, Repr

/-- One side of an overlap: a process with its entry and its exit, as far as the log holds them. -/
structure Side (α : Type) where
  process : ProcessId
  enter : Option Mark
  exit : Option Mark
  margin : α
  deriving DecidableEq, Repr

/-- An overlap, found at a record of the intruder. -/
structure Overlap (α : Type) where
  shape : Shape
  holder : Side α
  intruder : Side α
  /-- The line of the record of the intruder. -/
  line : Nat
  /-- Whether the overlap remains whatever the margins allow. -/
  genuine : Bool
  deriving DecidableEq, Repr

/-- A time between brackets, which may be missing. -/
def Mark.shown (mark : Option Mark) : String :=
  match mark with
  | some m => toString m.time.toInt
  | none => "?"

variable {α : Type}

/-- The text of a side, with a way of writing margins. -/
def Side.text (writeMargin : α → String) (side : Side α) : String :=
  side.process ++ " [" ++ Mark.shown side.enter ++ " .. " ++ Mark.shown side.exit ++ "] ±" ++
    writeMargin side.margin

/-- The text of an overlap, with a way of writing margins. -/
def Overlap.text (writeMargin : α → String) (o : Overlap α) : String :=
  "line " ++ toString o.line ++ ": " ++ o.intruder.text writeMargin ++ " inside " ++
    o.holder.text writeMargin ++ " (" ++ o.shape.name ++ "): " ++
    (if o.genuine then "VIOLATION" else "dissolved by clock skew")

/-! ## Judging an overlap -/

/-- An interval between an entry of a process and the exit paired with it, by their positions. -/
structure Window where
  first : Nat
  last : Nat
  enter : Event
  exit : Event
  deriving DecidableEq, Repr

namespace Window

/-- The holder of a window. -/
def holder (w : Window) (margins : Margins α) : Side α :=
  ⟨w.enter.process, some ⟨w.first + 1, w.enter.time⟩, some ⟨w.last + 1, w.exit.time⟩,
    margins.get w.enter.process⟩

/-- A time as a quantity. -/
def quantity [Quantity α] (time : Int64) : α := Quantity.ofInt time.toInt

/-- **Judges a record inside a window**: the record stands at a position, and `other` is its
partner with the position of that, if it has one. -/
def judge [Quantity α] (w : Window) (margins : Margins α) (position : Nat) (record : Event)
    (other : Option (Nat × Event)) : Overlap α :=
  let margin := margins.get w.enter.process
  let otherMargin := margins.get record.process
  let here : Mark := ⟨position + 1, record.time⟩
  let there : Option Mark := other.map fun (position, event) => ⟨position + 1, event.time⟩
  let (intruder, shape, genuine) : Side α × Shape × Bool := match record.kind, other with
    | .enter, some (last, exit) =>
      (⟨record.process, some here, there, otherMargin⟩,
        if last < w.last then
          (.fullyNested,
            Quantity.less (quantity w.enter.time + margin) (quantity record.time - otherMargin)
            || Quantity.less (quantity exit.time + otherMargin) (quantity w.exit.time - margin))
        else
          (.nestedOpen,
            Quantity.less (quantity record.time + otherMargin) (quantity w.exit.time - margin)))
    | .enter, none =>
      (⟨record.process, some here, none, otherMargin⟩, .nestedOpen,
        Quantity.less (quantity record.time + otherMargin) (quantity w.exit.time - margin))
    | .exit, _ =>
      (⟨record.process, there, some here, otherMargin⟩, .partialClose,
        Quantity.less (quantity w.enter.time + margin) (quantity record.time - otherMargin))
  ⟨shape, w.holder margins, intruder, position + 1, genuine⟩

end Window

end CriticalSection
