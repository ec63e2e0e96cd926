import Salsa.Errno
import Salsa.Lib.CText

/-!
# Channel maps as text

`snd_pcm_chmap_print` and `snd_pcm_chmap_parse_string` of `pcm.c`.
-/

open CText

namespace Salsa.Chmap

def SND_CHMAP_LAST : Nat := 36

def SND_CHMAP_POSITION_MASK : BitVec 32 := 0xffff#32
def SND_CHMAP_PHASE_INVERSE : BitVec 32 := 0x10000#32
def SND_CHMAP_DRIVER_SPEC : BitVec 32 := 0x20000#32

def _snd_chmap_names : List (List Char) :=
  [['U', 'N', 'K', 'N', 'O', 'W', 'N'], ['N', 'A'], ['M', 'O', 'N', 'O'],
   ['F', 'L'], ['F', 'R'],
   ['R', 'L'], ['R', 'R'],
   ['F', 'C'], ['L', 'F', 'E'],
   ['S', 'L'], ['S', 'R'],
   ['R', 'C'], ['F', 'L', 'C'], ['F', 'R', 'C'], ['R', 'L', 'C'], ['R', 'R', 'C'],
   ['F', 'L', 'W'], ['F', 'R', 'W'],
   ['F', 'L', 'H'], ['F', 'C', 'H'], ['F', 'R', 'H'], ['T', 'C'],
   ['T', 'F', 'L'], ['T', 'F', 'R'], ['T', 'F', 'C'],
   ['T', 'R', 'L'], ['T', 'R', 'R'], ['T', 'R', 'C'],
   ['T', 'F', 'L', 'C'], ['T', 'F', 'R', 'C'], ['T', 'S', 'L'], ['T', 'S', 'R'],
   ['L', 'L', 'F', 'E'], ['R', 'L', 'F', 'E'],
   ['B', 'C'], ['B', 'L', 'C'], ['B', 'R', 'C']]

/-- `snd_pcm_chmap_t`; `channels` is the length of `pos`. -/
structure SndPcmChmap where
  pos : List (BitVec 32)
deriving DecidableEq

def INV : List Char := ['[', 'I', 'N', 'V', ']']

/-! ## Printing -/

/-- What is printed for a position without its phase. A position past the name table
reads outside of it. -/
def position_text (pos : BitVec 32) : Option (List Char) :=
  let p := (pos &&& SND_CHMAP_POSITION_MASK).toNat
  if pos &&& SND_CHMAP_DRIVER_SPEC ≠ 0#32 then some (decimal p)
  else _snd_chmap_names[p]?

/-- `len += snprintf(buf + len, maxlen - len, ..)` with the check behind it, and what the
function goes on with. -/
def emit (maxlen : Nat) (text : List Char) (len : Nat) (buf : Nat → Char)
    (next : Nat → (Nat → Char) → Option (Int × (Nat → Char))) : Option (Int × (Nat → Char)) :=
  let (n, buf) := snprintf buf len (maxlen - len) text
  let len := len + n
  if len ≥ maxlen then some (-ENOMEM, buf) else next len buf

def print_position (maxlen : Nat) (pos : BitVec 32) (len : Nat) (buf : Nat → Char)
    (next : Nat → (Nat → Char) → Option (Int × (Nat → Char))) : Option (Int × (Nat → Char)) :=
  (position_text pos).bind fun text =>
    emit maxlen text len buf fun len buf =>
      if pos &&& SND_CHMAP_PHASE_INVERSE ≠ 0#32 then emit maxlen INV len buf next
      else next len buf

def chmap_print_loop (maxlen : Nat) : Nat → List (BitVec 32) → Nat → (Nat → Char) →
    Option (Int × (Nat → Char))
  | _, [], len, buf => some (len, buf)
  | i, pos :: rest, len, buf =>
    let position := fun len buf =>
      print_position maxlen pos len buf (chmap_print_loop maxlen (i + 1) rest)
    if i > 0 then emit maxlen [' '] len buf position else position len buf

def snd_pcm_chmap_print (map : SndPcmChmap) (maxlen : Nat) (buf : Nat → Char) :
    Option (Int × (Nat → Char)) :=
  chmap_print_loop maxlen 0 map.pos 0 buf

/-! ## Parsing -/

def name_matches (str : List Char) (len : Nat) (name : List Char) : Bool :=
  name.length ≤ len && strncasecmpEq str name name.length &&
    !((str.drop name.length).head?.any Char.isAlpha)

/-- `str` is the rest of the whole string, `len` the length of its first word. -/
def str_to_chmap (str : List Char) (len : Nat) : BitVec 32 :=
  let finish := fun (val : BitVec 32) (str : List Char) =>
    if strncasecmpEq str INV 5 then val ||| SND_CHMAP_PHASE_INVERSE else val
  if str.head?.any Char.isDigit then
    let (v, p) := strtoul str
    if v = ULONG_MAX then -1#32
    else finish (BitVec.ofNat 32 v ||| SND_CHMAP_DRIVER_SPEC) p
  else if strncasecmpEq str ['c', 'h'] 2 then
    let (v, p) := strtoul (str.drop 2)
    if v = ULONG_MAX then -1#32
    else finish (BitVec.ofNat 32 v) p
  else
    match _snd_chmap_names.findIdx? (name_matches str len) with
    | none => -1#32
    | some val => finish (BitVec.ofNat 32 val) (str.drop (_snd_chmap_names.getD val []).length)

/-- One round for each slot of `tmp_map` that is left. -/
def chmap_parse_loop : Nat → List Char → Option (List (BitVec 32))
  | 0, _ => none
  | slots + 1, str =>
    let len := (str.takeWhile Char.isAlphanum).length
    if len = 0 then none
    else
      let val := str_to_chmap str len
      if val.msb then none
      else
        let str := str.drop len
        let inv := str.head? == some '[' && strncmpEq str INV 5
        let val := if inv then val ||| SND_CHMAP_PHASE_INVERSE else val
        let str := (if inv then str.drop 5 else str).dropWhile fun c => !c.isAlphanum
        if str.isEmpty then some [val]
        else (chmap_parse_loop slots str).map (val :: ·)

def snd_pcm_chmap_parse_string (malloc : Bool) (str : List Char) : Option SndPcmChmap :=
  (chmap_parse_loop 64 str).bind fun pos => if malloc then some ⟨pos⟩ else none

example : snd_pcm_chmap_parse_string true ['f', 'l', '[', 'I', 'N', 'V', ']', ',', '7'] =
    some ⟨[0x10003#32, 0x20007#32]⟩ := by decide

end Salsa.Chmap
