import Mathlib

/-!
# Styles and the style palette (`packages/terminal-grid/src/style.rs`)

A cell carries the index of its style in a palette; index 0 is the default
style. `set_graphic_rendition` (SGR) edits the style that printing uses.
-/
namespace Bmux.Terminal

inductive Color where
  | indexed (index : UInt8)
  | rgb (r g b : UInt8)
  deriving DecidableEq, Repr

abbrev StyleId := Nat

def StyleId.DEFAULT : StyleId := 0

structure Style where
  fg : Option Color := none
  bg : Option Color := none
  bold : Bool := false
  italic : Bool := false
  underline : Bool := false
  inverse : Bool := false
  dim : Bool := false
  strike : Bool := false
  hidden : Bool := false
  deriving DecidableEq, Repr

namespace Style

def eraseFill (s : Style) : Style :=
  if s.inverse then { fg := s.fg, bg := s.bg, inverse := true } else { bg := s.bg }

def byte? (value : Int) : Option UInt8 :=
  if 0 ≤ value ∧ value < 256 then some (UInt8.ofNat value.toNat) else none

def indexedColor (index : Int) : Option Color := (byte? index).map .indexed

/-- mirrors packages/terminal-grid/src/model.rs:3582-3595; the color and the number of
parameters it takes up -/
def parseExtendedColor (params : List Int) : Option (Color × Nat) :=
  match params with
  | 5 :: index :: _ => (byte? index).map fun index => (.indexed index, 2)
  | 2 :: r :: g :: b :: _ => do
    let r ← byte? r
    let g ← byte? g
    let b ← byte? b
    return (.rgb r g b, 4)
  | _ => none

def setRendition (s : Style) (param : Int) : Style :=
  match param with
  | 0 => {}
  | 1 => { s with bold := true }
  | 2 => { s with dim := true }
  | 3 => { s with italic := true }
  | 4 => { s with underline := true }
  | 7 => { s with inverse := true }
  | 8 => { s with hidden := true }
  | 9 => { s with strike := true }
  | 22 => { s with bold := false, dim := false }
  | 23 => { s with italic := false }
  | 24 => { s with underline := false }
  | 27 => { s with inverse := false }
  | 28 => { s with hidden := false }
  | 29 => { s with strike := false }
  | 39 => { s with fg := none }
  | 49 => { s with bg := none }
  | _ =>
    if 30 ≤ param ∧ param ≤ 37 then { s with fg := indexedColor (param - 30) }
    else if 40 ≤ param ∧ param ≤ 47 then { s with bg := indexedColor (param - 40) }
    else if 90 ≤ param ∧ param ≤ 97 then { s with fg := indexedColor (param - 90 + 8) }
    else if 100 ≤ param ∧ param ≤ 107 then { s with bg := indexedColor (param - 100 + 8) }
    else s

/-- The loop of `set_graphic_rendition` over its parameters. -/
def renditionLoop (s : Style) : List Int → Style
  | [] => s
  | param :: rest =>
    if param = 38 ∨ param = 48 then
      match parseExtendedColor rest with
      | some (color, consumed) =>
        let s' := if param = 38 then { s with fg := some color } else { s with bg := some color }
        renditionLoop s' (rest.drop consumed)
      | none => renditionLoop s rest
    else renditionLoop (s.setRendition param) rest
termination_by params => params.length
decreasing_by
  · simp only [List.length_drop, List.length_cons]
    omega
  · simp
  · simp

/-- The style part of packages/terminal-grid/src/model.rs:1544-1597 -/
def setGraphicRendition (s : Style) (params : List Int) : Style :=
  s.renditionLoop (if params = [] then [0] else params)

end Style

structure StylePalette where
  styles : List Style := [{}]
  deriving DecidableEq, Repr

namespace StylePalette

def fromStyles (styles : List Style) : StylePalette := if styles = [] then {} else ⟨styles⟩

def styleId (index : Nat) : StyleId := if index < 2 ^ 32 then index else 2 ^ 32 - 1

def intern (p : StylePalette) (style : Style) : StyleId × StylePalette :=
  match p.styles.findIdx? (· = style) with
  | some index => (styleId index, p)
  | none => (styleId p.styles.length, ⟨p.styles ++ [style]⟩)

def get (p : StylePalette) (id : StyleId) : Style := p.styles.getD id {}

end StylePalette
end Bmux.Terminal
