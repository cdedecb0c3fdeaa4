import Mathlib

/-!
# Pointer shapes (`packages/terminal_protocol/src/pointer_shape.rs`)

An application asks for a mouse pointer with OSC 22. Each screen has a bounded
stack of requests; an entry `none` is a request to unset the shape.
-/
namespace Bmux.Terminal
open List

inductive PointerShape where
  | alias | cell | copy | crosshair | default | eResize | ewResize | grab | grabbing | help | move
  | nResize | neResize | neswResize | noDrop | notAllowed | nsResize | nwResize | nwseResize | pointer
  | progress | sResize | seResize | swResize | text | verticalText | wResize | wait | zoomIn | zoomOut
  deriving DecidableEq, Repr

namespace PointerShape

def ALL : List PointerShape :=
  [.alias, .cell, .copy, .crosshair, .default, .eResize, .ewResize, .grab, .grabbing, .help, .move, .nResize,
    .neResize, .neswResize, .noDrop, .notAllowed, .nsResize, .nwResize, .nwseResize, .pointer, .progress, .sResize,
    .seResize, .swResize, .text, .verticalText, .wResize, .wait, .zoomIn, .zoomOut]

/-- mirrors packages/terminal_protocol/src/pointer_shape.rs:96-130 -/
def asStr : PointerShape → String
  | .alias => "alias"
  | .cell => "cell"
  | .copy => "copy"
  | .crosshair => "crosshair"
  | .default => "default"
  | .eResize => "e-resize"
  | .ewResize => "ew-resize"
  | .grab => "grab"
  | .grabbing => "grabbing"
  | .help => "help"
  | .move => "move"
  | .nResize => "n-resize"
  | .neResize => "ne-resize"
  | .neswResize => "nesw-resize"
  | .noDrop => "no-drop"
  | .notAllowed => "not-allowed"
  | .nsResize => "ns-resize"
  | .nwResize => "nw-resize"
  | .nwseResize => "nwse-resize"
  | .pointer => "pointer"
  | .progress => "progress"
  | .sResize => "s-resize"
  | .seResize => "se-resize"
  | .swResize => "sw-resize"
  | .text => "text"
  | .verticalText => "vertical-text"
  | .wResize => "w-resize"
  | .wait => "wait"
  | .zoomIn => "zoom-in"
  | .zoomOut => "zoom-out"

def fromName (name : List UInt8) : Option PointerShape := ALL.find? fun shape => shape.asStr.toUTF8.data.toList = name

end PointerShape

inductive PointerShapeOperation where
  | set (names : List UInt8)
  | push (names : List UInt8)
  | pop
  | query (names : List UInt8)

def MAX_POINTER_SHAPE_PAYLOAD_BYTES : Nat := 1022

/-- mirrors packages/terminal_protocol/src/pointer_shape.rs:158-171; `none` is the parse error -/
def parsePointerShape (payload : List UInt8) : Option PointerShapeOperation :=
  if payload.length > MAX_POINTER_SHAPE_PAYLOAD_BYTES then none
  else match payload with
    | 0x3d :: rest => some (.set rest)
    | 0x3e :: rest => some (.push rest)
    | 0x3c :: _ => some .pop
    | 0x3f :: rest => some (.query rest)
    | _ => some (.set payload)

def POINTER_SHAPE_STACK_CAPACITY : Nat := 16

theorem nil_bounded : ([] : List (Option PointerShape)).length ≤ POINTER_SHAPE_STACK_CAPACITY := by decide

/-- mirrors packages/terminal_protocol/src/pointer_shape.rs:176-180. The entries in use,
lowest first: the array behind them holds `None`. -/
structure PointerShapeStack where
  entries : List (Option PointerShape) := []
  bounded : entries.length ≤ POINTER_SHAPE_STACK_CAPACITY := by exact nil_bounded
  deriving DecidableEq

namespace PointerShapeStack

variable (s : PointerShapeStack)

def current : Option PointerShape := s.entries.getLast?.join

def set (shape : Option PointerShape) : PointerShapeStack where
  entries := s.entries.dropLast ++ [shape]
  bounded := by
    have := s.bounded
    simp only [POINTER_SHAPE_STACK_CAPACITY, length_append, length_dropLast, length_singleton] at this ⊢
    omega

def push (shape : PointerShape) : PointerShapeStack where
  entries := (if s.entries.length = POINTER_SHAPE_STACK_CAPACITY then s.entries.drop 1 else s.entries) ++ [some shape]
  bounded := by
    have := s.bounded
    by_cases hfull : s.entries.length = POINTER_SHAPE_STACK_CAPACITY
    · rw [if_pos hfull, length_append, length_drop, hfull]
      exact Nat.le_refl 16
    · rw [if_neg hfull, length_append, length_singleton]
      omega

def pop : PointerShapeStack where
  entries := s.entries.dropLast
  bounded := by
    have := s.bounded
    simp only [length_dropLast]
    omega

end PointerShapeStack

structure PointerShapeState where
  main : PointerShapeStack := {}
  alternate : PointerShapeStack := {}
  deriving DecidableEq

namespace PointerShapeState

variable (s : PointerShapeState) (alternate : Bool)

def stack : PointerShapeStack := if alternate then s.alternate else s.main

def current : Option PointerShape := (s.stack alternate).current

def applyName (pushes : Bool) (stack : PointerShapeStack) (name : List UInt8) : PointerShapeStack :=
  match PointerShape.fromName name with
  | some shape => if pushes then stack.push shape else stack.set (some shape)
  | none => if name = [] ∧ pushes = false then stack.set none else stack

def applyStack (stack : PointerShapeStack) : PointerShapeOperation → PointerShapeStack
  | .set names =>
    if names.length ≤ MAX_POINTER_SHAPE_PAYLOAD_BYTES then (names.splitOn 0x2c).foldl (applyName false) stack else stack
  | .push names =>
    if names.length ≤ MAX_POINTER_SHAPE_PAYLOAD_BYTES then (names.splitOn 0x2c).foldl (applyName true) stack else stack
  | .pop => stack.pop
  | .query _ => stack

/-- mirrors packages/terminal_protocol/src/pointer_shape.rs:318-348; the caller compares the
states before and after -/
def apply (operation : PointerShapeOperation) : PointerShapeState :=
  if alternate then { s with alternate := applyStack s.alternate operation }
  else { s with main := applyStack s.main operation }

end PointerShapeState
end Bmux.Terminal
