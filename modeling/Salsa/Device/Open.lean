import Salsa.Device.Cards
import Salsa.Pcm.Setup

/-!
# Opening and closing devices

`snd_pcm_open`, `snd_pcm_close`, `snd_rawmidi_open` and `snd_rawmidi_close`. A PCM here is never set up
and has no asynchronous handler.
-/

namespace Salsa.Device

open Prog Descriptors Pcm

structure SndPcm where
  card : Int
  stream : SndPcmStream
  device : Int
  subdevice : Int
  protocol : Int
  fd : Nat
  /-- Whether the pointers are in a `sync_ptr` and not in mapped pages. -/
  sync_ptr : Bool

structure SndRawmidiHw where
  name : Option (List Char)
  fd : Nat
  opened : Int

inductive SndRawmidiStream where
  | output
  | input
deriving DecidableEq

structure SndRawmidi where
  stream : SndRawmidiStream
  mode : BitVec 32
  fd : Nat
  hw : Nat

/-- The descriptors, and the objects by their addresses. -/
structure State where
  table : Table
  pcms : Nat → Option SndPcm
  hws : Nat → Option SndRawmidiHw
  rmidis : Nat → Option SndRawmidi

instance instHasTableState : HasTable State := ⟨State.table, fun t s => { s with table := t }⟩

/-- `calloc` without memory. -/
def noMemory : Prog Table Unit := fun t => some ((), t.fail 12)

/-- `_snd_open_subdev`, and whether the subdevice is the one asked for. -/
def open_preferred (o : SubdevAnswers) (info : Except Errno Int) (subdev : Int) : Prog Table Int := do
  let fd ← _snd_open_subdev o
  if fd < 0 then return fd
  else do
    let subdevice ← get_subdev info
    if subdevice ≠ subdev then do
      closeFile fd.toNat
      return -EBUSY
    else return fd

/-! ## PCMs -/

def SND_PCM_NONBLOCK : BitVec 32 := 1#32

structure PcmAnswers where
  lookup : Lookup
  subdev : SubdevAnswers
  device : OpenAnswer
  info : Except Errno Int
  fcntl : Option Errno
  pversion : Except Errno Int
  user_pversion : Option Errno
  calloc : Option Nat
  mmap_status : Option Errno
  mmap_control : Option Errno
  sync_calloc : Bool
  sync_ptr : Option Errno

/-- The descriptor or an error, and the subdevice. -/
def open_pcm_device (o : PcmAnswers) (subdev : Int) : Prog Table (Int × Int) :=
  if subdev ≥ 0 then do
    let fd ← open_preferred o.subdev o.info subdev
    return (fd, subdev)
  else do
    let fd ← openFile o.device
    if fd < 0 then do
      let err ← negErrno
      return (err, subdev)
    else do
      let subdev ← get_subdev o.info
      if subdev < 0 then do
        closeFile fd.toNat
        return (-EBUSY, subdev)
      else return (fd, subdev)

/-- Whether a `sync_ptr` takes the place of the pages. -/
def snd_pcm_hw_mmap_status (o : PcmAnswers) : Prog Table (Except Int Bool) := do
  let status ← call o.mmap_status
  let control ← (if status < 0 then pure status else call o.mmap_control : Prog Table Int)
  if control ≥ 0 then return .ok false
  else if o.sync_calloc then do
    let _ ← call o.sync_ptr
    return .ok true
  else do
    noMemory
    return .error (-ENOMEM)

def State.add_pcm (s : State) (addr : Nat) (pcm : SndPcm) : State :=
  { s with pcms := Function.update s.pcms addr (some pcm) }

/-- From the descriptor to the handle, or to the label `error`. -/
def init_pcm (o : PcmAnswers) (stream : SndPcmStream) (mode : BitVec 32) (name : DeviceName) (subdev fd : Int) :
    Prog State (Except Int Nat) := do
  let _ ← sys (if mode &&& SND_PCM_NONBLOCK = 0#32 then call o.fcntl else pure 0)
  match ← sys (ioctl o.pversion) with
  | none =>
    let err ← sys negErrno
    return .error err
  | some ver =>
    let r ← sys (if SNDRV_PROTOCOL_VERSION 2 0 14 ≤ ver then call o.user_pversion else pure 0)
    if r < 0 then do
      let err ← sys negErrno
      return .error err
    else
      match o.calloc with
      | none =>
        sys noMemory
        return .error (-ENOMEM)
      | some addr =>
        match ← sys (snd_pcm_hw_mmap_status o) with
        | .error err => return .error err
        | .ok sync_ptr =>
          modify fun s => s.add_pcm addr ⟨name.card, stream, name.dev, subdev, ver, fd.toNat, sync_ptr⟩
          return .ok addr

def snd_pcm_open (o : PcmAnswers) (name : List Char) (stream : SndPcmStream) (mode : BitVec 32) :
    Prog State (Int × Option Nat) := do
  match ← sys (_snd_dev_get_device o.lookup name) with
  | .error err => return (err, none)
  | .ok name =>
    let (fd, subdev) ← sys (open_pcm_device o name.subdev)
    if fd < 0 then return (fd, none)
    else do
      match ← init_pcm o stream mode name subdev fd with
      | .error err =>
        sys (closeFile fd.toNat)
        return (err, none)
      | .ok pcm => return (0, some pcm)

def snd_pcm_close (pcm : Nat) : Prog State Unit := do
  match (← get).pcms pcm with
  | none => failure
  | some record =>
    sys (closeFile record.fd)
    modify fun s => { s with pcms := Function.update s.pcms pcm none }

/-! ## Raw MIDI -/

structure RmidiAnswers where
  calloc : Option Nat
  params : Option Errno

structure RawmidiAnswers where
  lookup : Lookup
  subdev : SubdevAnswers
  device : OpenAnswer
  info : Except Errno Int
  pversion : Option Errno
  hw : Option Nat
  strdup : Bool
  input : RmidiAnswers
  output : RmidiAnswers

def State.set_hw (s : State) (hw : Nat) (record : Option SndRawmidiHw) : State :=
  { s with hws := Function.update s.hws hw record }

def State.set_rmidi (s : State) (rmidi : Nat) (record : Option SndRawmidi) : State :=
  { s with rmidis := Function.update s.rmidis rmidi record }

def new_rmidi (o : RmidiAnswers) (hw : Nat) (stream : SndRawmidiStream) (mode : BitVec 32) :
    Prog State (Option Nat) := do
  match o.calloc with
  | none =>
    sys noMemory
    return none
  | some rmidi =>
    match (← get).hws hw with
    | none => failure
    | some record =>
      modify fun s => (s.set_rmidi rmidi (some ⟨stream, mode, record.fd, hw⟩)).set_hw hw
        (some { record with opened := record.opened + 1 })
      let _ ← sys (call o.params)
      return some rmidi

/-- `hw->opened--`, and what follows where that gives 0. -/
def release_hw (hw : Nat) : Prog State Unit := do
  match (← get).hws hw with
  | none => failure
  | some record =>
    if record.opened - 1 = 0 then do
      sys (closeFile record.fd)
      modify fun s => s.set_hw hw none
    else modify fun s => s.set_hw hw (some { record with opened := record.opened - 1 })

def snd_rawmidi_close (rmidi : Nat) : Prog State Unit := do
  match (← get).rmidis rmidi with
  | none => failure
  | some record =>
    release_hw record.hw
    modify fun s => s.set_rmidi rmidi none

def open_rawmidi_device (o : RawmidiAnswers) (subdev : Int) : Prog Table Int :=
  if subdev ≥ 0 then open_preferred o.subdev o.info subdev
  else do
    let fd ← openFile o.device
    if fd < 0 then negErrno else return fd

/-- From the descriptor to the handles, or to the label `error` with `*in_rmidi`. -/
def init_rawmidi (o : RawmidiAnswers) (input output : Bool) (name : List Char) (mode : BitVec 32) (fd : Int) :
    Prog State (Except (Int × Option Nat) (Option Nat × Option Nat)) := do
  let r ← sys (call o.pversion)
  if r < 0 then do
    let err ← sys negErrno
    return .error (err, none)
  else
    match o.hw with
    | none =>
      sys noMemory
      return .error (-ENOMEM, none)
    | some hw =>
      let _ ← sys (if o.strdup then pure () else noMemory)
      modify fun s => s.set_hw hw (some ⟨if o.strdup then some name else none, fd.toNat, 0⟩)
      let in_rmidi ← (if input then new_rmidi o.input hw .input mode else pure none : Prog State (Option Nat))
      if input ∧ in_rmidi = none then return .error (-ENOMEM, none)
      else do
        let out_rmidi ← (if output then new_rmidi o.output hw .output mode else pure none : Prog State (Option Nat))
        if output ∧ out_rmidi = none then return .error (-ENOMEM, in_rmidi)
        else return .ok (in_rmidi, out_rmidi)

/-- The label `error`: the input is closed, and the descriptor once more. -/
def error_rawmidi (in_rmidi : Option Nat) (fd err : Int) : Prog State (Int × Option Nat × Option Nat) := do
  match in_rmidi with
  | none =>
    sys (closeFile fd.toNat)
    return (err, none, none)
  | some rmidi =>
    snd_rawmidi_close rmidi
    sys (closeFile fd.toNat)
    return (err, none, none)

def snd_rawmidi_open (o : RawmidiAnswers) (input output : Bool) (name : List Char) (mode : BitVec 32) :
    Prog State (Int × Option Nat × Option Nat) := do
  match ← sys (_snd_dev_get_device o.lookup name) with
  | .error err => return (err, none, none)
  | .ok device =>
    let fd ← sys (open_rawmidi_device o device.subdev)
    if fd < 0 then return (fd, none, none)
    else do
      match ← init_rawmidi o input output name mode fd with
      | .error (err, in_rmidi) => error_rawmidi in_rmidi fd err
      | .ok (in_rmidi, out_rmidi) => return (0, in_rmidi, out_rmidi)

end Salsa.Device
