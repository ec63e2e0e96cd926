import Salsa.Errno

/-!
# Control element ids

`snd_ctl_elem_id` of `asound.h` and the interface names of `control.c`.
-/

namespace Salsa.Ctl

def SND_CTL_ELEM_IFACE_LAST : Nat := 6

def _snd_ctl_elem_iface_names : List (List Char) :=
  [['C', 'A', 'R', 'D'], ['H', 'W', 'D', 'E', 'P'], ['M', 'I', 'X', 'E', 'R'], ['P', 'C', 'M'],
   ['R', 'A', 'W', 'M', 'I', 'D', 'I'], ['T', 'I', 'M', 'E', 'R'],
   ['S', 'E', 'Q', 'U', 'E', 'N', 'C', 'E', 'R']]

/-- `snd_ctl_elem_id_t`; `name` is the C string in its 44 characters. -/
structure SndCtlElemId where
  numid : BitVec 32
  iface : BitVec 32
  device : BitVec 32
  subdevice : BitVec 32
  name : List Char
  index : BitVec 32
deriving DecidableEq

def zeroed_id : SndCtlElemId := ⟨0#32, 0#32, 0#32, 0#32, [], 0#32⟩

end Salsa.Ctl
