import Mathlib

/-!
# The terminal syntax decoder (`packages/terminal-grid/src/vt_parser.rs`)

`Parser.advance` takes a chunk of bytes and gives the calls that it makes on its
performer, in order, as `Action`s. Nothing flows back from the performer, so
running the calls afterwards is the same.

The fixed-size arrays of the source with their lengths are lists here.
-/
namespace Bmux.Terminal

/-- mirrors packages/terminal-grid/src/vt_parser.rs:9-15: the closed groups and the group that
colons extend, 32 values in all -/
structure Params where
  closed : List (List Nat) := []
  current : List Nat := []
  deriving DecidableEq, Repr

namespace Params

def CAPACITY : Nat := 32

def used (p : Params) : Nat := p.closed.flatten.length + p.current.length

def append (p : Params) (value : Nat) (close : Bool) : Bool × Params :=
  if p.used = CAPACITY then (false, p)
  else if close then (true, { closed := p.closed ++ [p.current ++ [value]], current := [] })
  else (true, { p with current := p.current ++ [value] })

def finish (p : Params) (value : Nat) : Bool × Params :=
  if (p.append value true).1 then p.append value true
  else if p.current.isEmpty then (false, p)
  else (false, { closed := p.closed ++ [p.current], current := [] })

end Params

/-- mirrors packages/terminal-grid/src/vt_parser.rs:105-121 -/
inductive Action where
  | print (character : Char)
  | execute (byte : UInt8)
  | hook (params : List (List Nat)) (intermediates : List UInt8) (ignore : Bool) (action : Char)
  | put (byte : UInt8)
  | unhook
  | oscDispatch (params : List (List UInt8)) (bellTerminated : Bool)
  | csiDispatch (params : List (List Nat)) (intermediates : List UInt8) (ignore : Bool) (action : Char)
  | escDispatch (intermediates : List UInt8) (ignore : Bool) (byte : UInt8)
  deriving DecidableEq, Repr

inductive ParserState where
  | text | escape | escapeCollect | csiStart | csiNumbers | csiCollect | csiDiscard | dcsStart | dcsNumbers
  | dcsCollect | dcsDiscard | dcsData | osc | oscEscape | stringDiscard
  deriving DecidableEq, Repr

def OSC_RAW_BUF_SIZE : Nat := 1024

/-- mirrors packages/terminal-grid/src/vt_parser.rs:142-157. `osc` are the stored bytes and
`oscEnds` the ends of the closed arguments in them. -/
structure Parser where
  state : ParserState := .text
  params : Params := {}
  number : Nat := 0
  intermediates : List UInt8 := []
  ignored : Bool := false
  osc : List UInt8 := []
  oscEnds : List Nat := []
  oscOverflow : Bool := false
  utf8 : List UInt8 := []
  utf8Expected : Nat := 0
  deriving DecidableEq, Repr

/-! ## UTF-8 -/

/-- What `std::str::from_utf8` finds at the front of some bytes: a scalar of some length, an error
of some length, or a sequence that more bytes may complete. -/
inductive Utf8Head where
  | scalar (c : Char) (len : Nat)
  | invalid (len : Nat)
  | incomplete
  deriving DecidableEq, Repr

def isContinuation (b : UInt8) : Bool := 0x80 ≤ b && b ≤ 0xbf

def secondOk (first second : UInt8) : Bool :=
  isContinuation second &&
    (if first = 0xe0 then decide (second ≥ 0xa0)
    else if first = 0xed then decide (second ≤ 0x9f)
    else if first = 0xf0 then decide (second ≥ 0x90)
    else if first = 0xf4 then decide (second ≤ 0x8f)
    else true)

def scalarOf (bits : Nat) : Char := Char.ofNat bits

def utf8Head : List UInt8 → Utf8Head
  | [] => .incomplete
  | b₁ :: rest =>
    if b₁ < 0x80 then .scalar (scalarOf b₁.toNat) 1
    else if b₁ < 0xc2 ∨ b₁ > 0xf4 then .invalid 1
    else match rest with
      | [] => .incomplete
      | b₂ :: rest =>
        if ¬ secondOk b₁ b₂ then .invalid 1
        else if b₁ < 0xe0 then .scalar (scalarOf (b₁.toNat % 32 * 64 + b₂.toNat % 64)) 2
        else match rest with
          | [] => .incomplete
          | b₃ :: rest =>
            if ¬ isContinuation b₃ then .invalid 2
            else if b₁ < 0xf0 then .scalar (scalarOf (b₁.toNat % 16 * 4096 + b₂.toNat % 64 * 64 + b₃.toNat % 64)) 3
            else match rest with
              | [] => .incomplete
              | b₄ :: _ =>
                if ¬ isContinuation b₄ then .invalid 3
                else .scalar
                  (scalarOf (b₁.toNat % 8 * 262144 + b₂.toNat % 64 * 4096 + b₃.toNat % 64 * 64 + b₄.toNat % 64)) 4

/-- `valid_up_to` of the error, or `none` if all the bytes are valid; `fuel` bounds the scalars. -/
def validUpTo (bytes : List UInt8) : Nat → Option Nat
  | 0 => none
  | fuel + 1 =>
    if bytes.isEmpty then none
    else match utf8Head bytes with
      | .scalar _ len => (validUpTo (bytes.drop len) fuel).map (len + ·)
      | _ => some 0

namespace Parser

/-! ## Saving the decoder -/

def writeNumber (value : Nat) : List UInt8 := (Nat.toDigits 10 value).map fun c => UInt8.ofNat c.toNat

variable (p : Parser)

def isPointerOsc : Bool := p.oscEnds.head? = some 2 && decide (p.osc.take 2 = [0x32, 0x32])

/-- Stored arguments, each with the separator behind it, and what follows them. -/
def joinOsc (osc : List UInt8) (start : Nat) : List Nat → List UInt8
  | [] => osc.drop start
  | stop :: ends => (osc.take stop).drop start ++ 0x3b :: joinOsc osc stop ends

def writeOscPrefix : List UInt8 :=
  let pointerPrefix := p.oscEnds.isEmpty && (p.osc.isEmpty || p.osc.isPrefixOf [0x32, 0x32])
  let payload := if p.isPointerOsc || pointerPrefix then
      if p.oscOverflow then [0x32, 0x32, 0x3b] ++ List.replicate (OSC_RAW_BUF_SIZE + 1) 0x78
      else joinOsc p.osc 0 p.oscEnds
    else []
  [0x1b, 0x5d] ++ payload ++ if p.state = .oscEscape then [0x1b] else []

/-- The values of a header with their separators: a semicolon behind the last one of a closed
group, a colon behind any other. -/
def writeGroup (last : UInt8) : List Nat → List UInt8
  | [] => []
  | [value] => writeNumber value ++ [last]
  | value :: values => writeNumber value ++ [0x3a] ++ writeGroup last values

/-- A header begun, packages/terminal-grid/src/vt_parser.rs:222-262 -/
def writeHeader : List UInt8 :=
  let dcs := p.state = .dcsStart ∨ p.state = .dcsNumbers ∨ p.state = .dcsCollect
  let marker := if p.intermediates.head?.any (· ≥ 0x3c) then 1 else 0
  let used := p.params.used
  let numbers := used ≠ 0 ∨ p.number ≠ 0 ∨ p.state = .csiNumbers ∨ p.state = .dcsNumbers
  (if dcs then [0x1b, 0x50] else [0x1b, 0x5b]) ++ p.intermediates.take marker ++
    p.params.closed.flatMap (writeGroup 0x3b) ++ writeGroup 0x3a p.params.current ++
    (if numbers then writeNumber p.number else []) ++
    (if p.ignored ∧ used = 32 then [0x30] else []) ++ p.intermediates.drop marker ++
    (if p.ignored ∧ used < 32 then [0x20] else [])

def replayPrefix : List UInt8 :=
  match p.state with
  | .text => p.utf8
  | .osc | .oscEscape => p.writeOscPrefix
  | .stringDiscard => [0x1b, 0x5f]
  | .dcsData => [0x1b, 0x50, 0x71]
  | .dcsDiscard => [0x1b, 0x50, 0x20, 0x24, 0x30]
  | .csiDiscard => [0x1b, 0x5b, 0x20, 0x24, 0x30]
  | .escape | .escapeCollect => 0x1b :: p.intermediates ++ if p.ignored then [0x20] else []
  | .csiStart | .csiNumbers | .csiCollect | .dcsStart | .dcsNumbers | .dcsCollect => p.writeHeader

/-! ## Decoding -/

def clearHeader : Parser := { p with params := {}, number := 0, intermediates := [], ignored := false }

variable (byte : UInt8)

def collect : Parser :=
  if p.intermediates.length < 2 then { p with intermediates := p.intermediates ++ [byte] }
  else { p with ignored := true }

def parameter : Parser :=
  if p.params.used = 32 then { p with ignored := true }
  else if 0x30 ≤ byte ∧ byte ≤ 0x39 then { p with
    number := min (min (p.number * 10) 65535 + (byte.toNat - 0x30)) 65535 }
  else if byte = 0x3a ∨ byte = 0x3b then { p with
    params := (p.params.append p.number (decide (byte = 0x3b))).2, number := 0 }
  else p

def finishHeader : Parser :=
  let finished := p.params.finish p.number
  { p with params := finished.2, ignored := if finished.1 then p.ignored else true }

def oscArgs (osc : List UInt8) (start : Nat) : List Nat → List (List UInt8)
  | [] => []
  | stop :: ends => (osc.take stop).drop start :: oscArgs osc stop ends

def endString (bell : Bool) : List Action × Parser :=
  match p.state with
  | .dcsData => ([.unhook], p)
  | .osc | .oscEscape =>
    if p.isPointerOsc && p.oscOverflow then ([], p)
    else
      let p := if p.oscEnds.length < 16 then { p with oscEnds := p.oscEnds ++ [p.osc.length] } else p
      ([.oscDispatch (oscArgs p.osc 0 p.oscEnds) bell], p)
  | _ => ([], p)

/-- mirrors packages/terminal-grid/src/vt_parser.rs:423-443; whether the byte is dealt with, the
calls and the decoder -/
def pointerStringControl : Bool × List Action × Parser :=
  if p.state = .oscEscape then
    if byte = 0x5c then
      let ended := p.endString false
      (true, ended.1, { ended.2 with state := .text })
    else (false, [], { p with state := .escape }.clearHeader)
  else if p.state = .osc ∧ p.isPointerOsc then
    if byte = 0x1b then (true, [], { p with state := .oscEscape })
    else if byte = 0x18 ∨ byte = 0x1a then (true, [], { p with state := .text })
    else (false, [], p)
  else (false, [], p)

def escape (p : Parser) (byte : UInt8) : List Action × Parser :=
  if byte ≤ 0x1f then ([.execute byte], p)
  else if byte ≤ 0x2f then ([], { p.collect byte with state := .escapeCollect })
  else if byte = 0x5b ∧ p.state = .escape then ([], { p.clearHeader with state := .csiStart })
  else if byte = 0x50 ∧ p.state = .escape then ([], { p.clearHeader with state := .dcsStart })
  else if byte = 0x5d ∧ p.state = .escape then
    ([], { p with osc := [], oscEnds := [], oscOverflow := false, state := .osc })
  else if (byte = 0x58 ∨ byte = 0x5e ∨ byte = 0x5f) ∧ p.state = .escape then ([], { p with state := .stringDiscard })
  else if byte ≤ 0x7e then ([.escDispatch p.intermediates p.ignored byte], { p with state := .text })
  else ([], p)

/-- mirrors packages/terminal-grid/src/vt_parser.rs:561-623 -/
def header : List Action × Parser :=
  let dcs : Bool := decide (p.state = .dcsStart ∨ p.state = .dcsNumbers ∨ p.state = .dcsCollect)
  let collecting : Bool := decide (p.state = .csiCollect ∨ p.state = .dcsCollect)
  let entry : Bool := decide (p.state = .csiStart ∨ p.state = .dcsStart)
  let numbers : ParserState := if dcs then .dcsNumbers else .csiNumbers
  if byte ≤ 0x1f then (if dcs then [] else [.execute byte], p)
  else if byte ≤ 0x2f then ([], { p.collect byte with state := if dcs then .dcsCollect else .csiCollect })
  else if byte ≤ 0x3f then
    if collecting ∨ byte ≥ 0x3c ∧ ¬ entry then ([], { p with state := if dcs then .dcsDiscard else .csiDiscard })
    else if byte ≥ 0x3c then ([], { p.collect byte with state := numbers })
    else ([], { p.parameter byte with state := numbers })
  else if byte ≤ 0x7e then
    let p := p.finishHeader
    let action := Char.ofNat byte.toNat
    if dcs then ([.hook p.params.closed p.intermediates p.ignored action], { p with state := .dcsData })
    else ([.csiDispatch p.params.closed p.intermediates p.ignored action], { p with state := .text })
  else ([], p)

def text : List Action × Parser :=
  if byte ≤ 0x1f ∨ 0x80 ≤ byte ∧ byte ≤ 0x9f then ([.execute byte], p)
  else if byte ≤ 0x7f then ([.print (Char.ofNat byte.toNat)], p)
  else if 0xc2 ≤ byte ∧ byte ≤ 0xf4 then
    ([], { p with utf8 := [byte], utf8Expected := if byte < 0xe0 then 2 else if byte < 0xf0 then 3 else 4 })
  else ([.print '�'], p)

def completeUtf8 (bytes : List UInt8) : List Action :=
  match utf8Head bytes with
  | .scalar c _ => if 0x80 ≤ c.toNat ∧ c.toNat ≤ 0x9f then [.execute (UInt8.ofNat c.toNat)] else [.print c]
  | _ => []

def continueUtf8 : Bool × List Action × Parser :=
  let first := p.utf8.headD 0
  let valid := isContinuation byte && (decide (p.utf8.length ≠ 1) || secondOk first byte)
  if ¬ valid then (false, [.print '�'], { p with utf8 := [] })
  else
    let bytes := p.utf8 ++ [byte]
    if bytes.length = p.utf8Expected then (true, completeUtf8 bytes, { p with utf8 := [] })
    else (true, [], { p with utf8 := bytes })

/-- The byte in an OSC string, packages/terminal-grid/src/vt_parser.rs:479-503 -/
def oscByte : List Action × Parser :=
  if byte = 0x07 then
    let ended := p.endString true
    (ended.1, { ended.2 with state := .text })
  else if byte ≤ 0x1f then ([], if p.isPointerOsc then { p with oscOverflow := true } else p)
  else if byte = 0x3b then
    ([], if p.oscEnds.length < 16 then { p with oscEnds := p.oscEnds ++ [p.osc.length] }
      else { p with oscOverflow := true })
  else
    ([], if p.osc.length < OSC_RAW_BUF_SIZE ∧ p.oscEnds.length < 16 then { p with osc := p.osc ++ [byte] }
      else { p with oscOverflow := true })

/-- The byte by state, packages/terminal-grid/src/vt_parser.rs:464-509 -/
def dispatch : List Action × Parser :=
  match p.state with
  | .text => p.text byte
  | .escape | .escapeCollect => p.escape byte
  | .csiStart | .csiNumbers | .csiCollect | .dcsStart | .dcsNumbers | .dcsCollect => p.header byte
  | .csiDiscard =>
    if byte ≤ 0x1f then ([.execute byte], p)
    else if 0x40 ≤ byte ∧ byte ≤ 0x7e then ([], { p with state := .text })
    else ([], p)
  | .dcsData =>
    if byte = 0x9c then ([.unhook], { p with state := .text })
    else if byte ≤ 0x7e then ([.put byte], p)
    else ([], p)
  | .osc => p.oscByte byte
  | .oscEscape => ([], p)
  | .dcsDiscard => ([], if byte = 0x9c then { p with state := .text } else p)
  | .stringDiscard => ([], p)

/-- The byte once a saved sequence is out of the way, packages/terminal-grid/src/vt_parser.rs:446-509 -/
def control : List Action × Parser :=
  let pointer := p.pointerStringControl byte
  if pointer.1 then pointer.2
  else
    let p := pointer.2.2
    if byte = 0x18 ∨ byte = 0x1a then
      let ended := p.endString false
      (ended.1 ++ [.execute byte], { ended.2 with state := .text })
    else if byte = 0x1b then
      let ended := p.endString false
      (ended.1, { ended.2.clearHeader with state := .escape })
    else p.dispatch byte

def consume : List Action × Parser :=
  if p.state = .text ∧ p.utf8 ≠ [] then
    let continued := p.continueUtf8 byte
    if continued.1 then continued.2
    else
      let rest := continued.2.2.control byte
      (continued.2.1 ++ rest.1, rest.2)
  else p.control byte

/-- mirrors packages/terminal-grid/src/vt_parser.rs:318-349; the bytes of the chunk dealt with, the
calls and the decoder. The saved bytes already hold `added` bytes of the chunk. -/
def completeSavedUtf8 (added : Nat) : Nat × List Action × Parser :=
  let original := p.utf8.length - added
  match utf8Head p.utf8 with
  | .scalar c len =>
    match validUpTo p.utf8 p.utf8.length with
    | none => (len - original, [.print c], { p with utf8 := [] })
    | some valid => (valid - original, [.print c], { p with utf8 := [] })
  | .invalid len => (len - original, [.print '�'], { p with utf8 := [] })
  | .incomplete => (added, [], p)

def consumeAll (p : Parser) : List UInt8 → List Action × Parser
  | [] => ([], p)
  | byte :: bytes =>
    let here := p.consume byte
    let rest := here.2.consumeAll bytes
    (here.1 ++ rest.1, rest.2)

def advance (bytes : List UInt8) : List Action × Parser :=
  if p.utf8 ≠ [] then
    let count := min (4 - p.utf8.length) bytes.length
    let saved := { p with utf8 := p.utf8 ++ bytes.take count }.completeSavedUtf8 count
    let rest := saved.2.2.consumeAll (bytes.drop saved.1)
    (saved.2.1 ++ rest.1, rest.2)
  else p.consumeAll bytes

end Parser
end Bmux.Terminal
