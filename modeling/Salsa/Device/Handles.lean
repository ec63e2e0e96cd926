import Salsa.Device.Open
import Salsa.Lib.Ledger
import Salsa.Lib.Run

/-!
# Handles of controls, hardware dependent devices and timers

Opening and closing in `control.c`, `hcontrol.c`, `hwdep.c` and `timer.c`. A handle has its descriptor, and a hardware
dependent device and a timer have a copy of their name, which closing them forgets.
-/

namespace Salsa.Device.Handles

open Prog Descriptors CText Run

structure SndCtl where
  card : Int
  fd : Nat
  protocol : Int

/-- The addresses of names are those of copies. -/
structure SndHwdep where
  name : Option Nat
  fd : Nat
  mode : BitVec 32

structure SndTimer where
  name : Option Nat
  fd : Nat
  version : Int
  mode : BitVec 32

/-- The descriptors, and what was allocated by its address. Of an hctl this is its control. -/
structure State where
  table : Table
  names : Nat → Option (List Char)
  ctls : Nat → Option SndCtl
  hctls : Nat → Option Nat
  hwdeps : Nat → Option SndHwdep
  timers : Nat → Option SndTimer

instance instHasTableState : HasTable State := ⟨State.table, fun t s => { s with table := t }⟩

/-! ## The source -/

/-- `open` and the version, and the error of the one that fails. -/
def open_device (device : OpenAnswer) (pversion : Except Errno Int) : Prog Table (Except Int (Nat × Int)) := do
  let fd ← openFile device
  if fd < 0 then do
    let err ← negErrno
    return .error err
  else do
    match ← ioctl pversion with
    | none =>
      let err ← negErrno
      closeFile fd.toNat
      return .error err
    | some ver => return .ok (fd.toNat, ver)

/-- `calloc` fails after the device was opened. -/
def no_handle (fd : Nat) : Prog State (Int × Option Nat) := do
  sys noMemory
  sys (closeFile fd)
  return (-ENOMEM, none)

structure CtlAnswers where
  lookup : Lookup
  device : OpenAnswer
  pversion : Except Errno Int
  calloc : Option Nat

def State.set_ctl (s : State) (ctl : Nat) (record : Option SndCtl) : State :=
  { s with ctls := Function.update s.ctls ctl record }

def snd_ctl_open (o : CtlAnswers) (name : List Char) : Prog State (Int × Option Nat) := do
  match ← sys (_snd_dev_get_card o.lookup name) with
  | .error err => return (err, none)
  | .ok card =>
    match ← sys (open_device o.device o.pversion) with
    | .error err => return (err, none)
    | .ok (fd, ver) =>
      match o.calloc with
      | none => no_handle fd
      | some ctl =>
        modify fun s => s.set_ctl ctl (some ⟨card, fd, ver⟩)
        return (0, some ctl)

def snd_ctl_close (ctl : Nat) : Prog State Int := do
  match (← get).ctls ctl with
  | none => failure
  | some record =>
    sys (closeFile record.fd)
    modify fun s => s.set_ctl ctl none
    return 0

def State.set_hctl (s : State) (hctl : Nat) (ctl : Option Nat) : State :=
  { s with hctls := Function.update s.hctls hctl ctl }

def snd_hctl_open_ctl (calloc : Option Nat) (ctl : Nat) : Prog State (Int × Option Nat) := do
  match calloc with
  | none =>
    sys noMemory
    return (-ENOMEM, none)
  | some hctl =>
    modify fun s => s.set_hctl hctl (some ctl)
    return (0, some hctl)

def snd_hctl_open (o : CtlAnswers) (calloc : Option Nat) (name : List Char) : Prog State (Int × Option Nat) := do
  let (err, ctl) ← snd_ctl_open o name
  if err < 0 then return (err, none)
  else
    match ctl with
    | none => failure
    | some ctl =>
      let (err, hctl) ← snd_hctl_open_ctl calloc ctl
      if err < 0 then do
        let _ ← snd_ctl_close ctl
        return (err, hctl)
      else return (err, hctl)

def snd_hctl_close (hctl : Nat) : Prog State Int := do
  match (← get).hctls hctl with
  | none => failure
  | some ctl =>
    let _ ← snd_ctl_close ctl
    modify fun s => s.set_hctl hctl none
    return 0

/-- Where there is no memory the name is NULL. -/
def strdup (copy : Option Nat) (name : List Char) : Prog State (Option Nat) := do
  match copy with
  | none =>
    sys noMemory
    return none
  | some addr =>
    modify fun s => { s with names := Function.update s.names addr (some name) }
    return some addr

structure HwdepAnswers where
  lookup : Lookup
  device : OpenAnswer
  pversion : Except Errno Int
  calloc : Option Nat
  strdup : Option Nat

def State.set_hwdep (s : State) (hwdep : Nat) (record : Option SndHwdep) : State :=
  { s with hwdeps := Function.update s.hwdeps hwdep record }

def snd_hwdep_open (o : HwdepAnswers) (name : List Char) (mode : BitVec 32) : Prog State (Int × Option Nat) := do
  -- No subdevice is asked for, and so the number of the device is 0.
  match ← sys (_snd_dev_get_card o.lookup name) with
  | .error err => return (err, none)
  | .ok _ =>
    match ← sys (open_device o.device o.pversion) with
    | .error err => return (err, none)
    | .ok (fd, _) =>
      match o.calloc with
      | none => no_handle fd
      | some hwdep =>
        let copy ← strdup o.strdup name
        modify fun s => s.set_hwdep hwdep (some ⟨copy, fd, mode⟩)
        return (0, some hwdep)

def snd_hwdep_close (hwdep : Nat) : Prog State Int := do
  match (← get).hwdeps hwdep with
  | none => failure
  | some record =>
    sys (closeFile record.fd)
    modify fun s => s.set_hwdep hwdep none
    return 0

def SND_TIMER_OPEN_NONBLOCK : BitVec 32 := 1#32
def SND_TIMER_OPEN_TREAD : BitVec 32 := 2#32
def O_NONBLOCK : BitVec 32 := 0x800#32

structure TimerAnswers where
  device : OpenAnswer
  pversion : Except Errno Int
  tread : Option Errno
  select : Option Errno
  calloc : Option Nat
  strdup : Option Nat

/-- Whether `sscanf` reads one number at least. -/
def scans_class (name : List Char) : Bool := ((scanLiteral "hw:CLASS=".toList name).bind scanAnyInt).isSome

def init_timer (o : TimerAnswers) (mode : BitVec 32) : Prog Table (Except Int Int) := do
  match ← ioctl o.pversion with
  | none =>
    let err ← negErrno
    return .error err
  | some ver =>
    let r ← (if mode &&& SND_TIMER_OPEN_TREAD ≠ 0#32 then call o.tread else pure 0 : Prog Table Int)
    if r < 0 then do
      let err ← negErrno
      return .error err
    else do
      let r ← call o.select
      if r < 0 then do
        let err ← negErrno
        return .error err
      else return .ok ver

def State.set_timer (s : State) (timer : Nat) (record : Option SndTimer) : State :=
  { s with timers := Function.update s.timers timer record }

def snd_timer_open (o : TimerAnswers) (name : List Char) (mode : BitVec 32) : Prog State (Int × Option Nat) := do
  if name ≠ "hw".toList ∧ scans_class name = false then return (-ENODEV, none)
  else do
    let tmode := if mode &&& SND_TIMER_OPEN_NONBLOCK ≠ 0#32 then O_NONBLOCK else 0#32
    let fd ← sys (openFile o.device)
    if fd < 0 then do
      let err ← sys negErrno
      return (err, none)
    else do
      match ← sys (init_timer o mode) with
      | .error err =>
        sys (closeFile fd.toNat)
        return (err, none)
      | .ok ver =>
        match o.calloc with
        | none => no_handle fd.toNat
        | some timer =>
          let copy ← strdup o.strdup name
          modify fun s => s.set_timer timer (some ⟨copy, fd.toNat, ver, tmode⟩)
          return (0, some timer)

def snd_timer_close (timer : Nat) : Prog State Int := do
  match (← get).timers timer with
  | none => failure
  | some record =>
    sys (closeFile record.fd)
    modify fun s => s.set_timer timer none
    return 0

/-! ## Runs -/

inductive Request
  | ctl_open (o : CtlAnswers) (name : List Char)
  | ctl_close (ctl : Nat)
  | hctl_open (o : CtlAnswers) (calloc : Option Nat) (name : List Char)
  | hctl_open_ctl (calloc : Option Nat) (ctl : Nat)
  | hctl_close (hctl : Nat)
  | hwdep_open (o : HwdepAnswers) (name : List Char) (mode : BitVec 32)
  | hwdep_close (hwdep : Nat)
  | timer_open (o : TimerAnswers) (name : List Char) (mode : BitVec 32)
  | timer_close (timer : Nat)

/-- The value that is returned. -/
def exec : Request → Prog State Int
  | .ctl_open o name => do return (← snd_ctl_open o name).1
  | .ctl_close ctl => snd_ctl_close ctl
  | .hctl_open o calloc name => do return (← snd_hctl_open o calloc name).1
  | .hctl_open_ctl calloc ctl => do return (← snd_hctl_open_ctl calloc ctl).1
  | .hctl_close hctl => snd_hctl_close hctl
  | .hwdep_open o name mode => do return (← snd_hwdep_open o name mode).1
  | .hwdep_close hwdep => snd_hwdep_close hwdep
  | .timer_open o name mode => do return (← snd_timer_open o name mode).1
  | .timer_close timer => snd_timer_close timer

inductive Handle
  | ctl (ctl : Nat)
  | hwdep (hwdep : Nat)
  | timer (timer : Nat)
deriving DecidableEq

def State.fd_of (s : State) : Handle → Option Nat
  | .ctl ctl => (s.ctls ctl).map SndCtl.fd
  | .hwdep hwdep => (s.hwdeps hwdep).map SndHwdep.fd
  | .timer timer => (s.timers timer).map SndTimer.fd

def State.name_of (s : State) : Handle → Option Nat
  | .ctl _ => none
  | .hwdep hwdep => (s.hwdeps hwdep).bind SndHwdep.name
  | .timer timer => (s.timers timer).bind SndTimer.name

/-- The names that are lost with a call. -/
def lost (s : State) : Request → Option Nat
  | .hwdep_close hwdep => s.name_of (.hwdep hwdep)
  | .timer_close timer => s.name_of (.timer timer)
  | _ => none

/-- The state, and the names that were lost on the way. -/
def step (s : State × List Nat) (a : Request) : Option (State × List Nat) :=
  (exec a s.1).map fun r => (r.2, (lost s.1 a).toList ++ s.2)

/-- Where memory is given out, and what the callers promise. -/
def Allowed (s : State × List Nat) : Request → Prop
  | .ctl_open o _ => ∀ ctl, o.calloc = some ctl → s.1.ctls ctl = none
  | .ctl_close ctl => s.1.ctls ctl ≠ none ∧ ∀ hctl, s.1.hctls hctl ≠ some ctl
  | .hctl_open o calloc _ => (∀ ctl, o.calloc = some ctl → s.1.ctls ctl = none) ∧
      ∀ hctl, calloc = some hctl → s.1.hctls hctl = none
  | .hctl_open_ctl calloc ctl => s.1.ctls ctl ≠ none ∧ (∀ hctl, s.1.hctls hctl ≠ some ctl) ∧
      ∀ hctl, calloc = some hctl → s.1.hctls hctl = none
  | .hctl_close hctl => s.1.hctls hctl ≠ none
  | .hwdep_open o _ _ => (∀ hwdep, o.calloc = some hwdep → s.1.hwdeps hwdep = none) ∧
      ∀ copy, o.strdup = some copy → s.1.names copy = none
  | .hwdep_close hwdep => s.1.hwdeps hwdep ≠ none
  | .timer_open o _ _ => (∀ timer, o.calloc = some timer → s.1.timers timer = none) ∧
      ∀ copy, o.strdup = some copy → s.1.names copy = none
  | .timer_close timer => s.1.timers timer ≠ none

/-- Each descriptor that was opened is that of one handle, and each copy of a name that of one handle or lost. -/
structure Books (table : Table) (s : State × List Nat) : Prop where
  fds : Ledger.Balanced {fd | fd ∈ table.fds} ∅ {fd | fd ∈ s.1.table.fds} s.1.fd_of
  names : Ledger.Balanced ∅ {copy | copy ∈ s.2} {copy | s.1.names copy ≠ none} s.1.name_of
  nodup : s.2.Nodup

/-- Each hctl has a control of its own. -/
structure Owned (table : Table) (s : State × List Nat) : Prop extends Books table s where
  ctl : ∀ hctl ctl, s.1.hctls hctl = some ctl → s.1.ctls ctl ≠ none
  alone : ∀ hctl hctl' ctl, s.1.hctls hctl = some ctl → s.1.hctls hctl' = some ctl → hctl = hctl'

/-- The same handles, with the same descriptors. -/
structure Unchanged (s s' : State) : Prop where
  table : Same s.table s'.table
  names : s'.names = s.names
  ctls : s'.ctls = s.ctls
  hctls : s'.hctls = s.hctls
  hwdeps : s'.hwdeps = s.hwdeps
  timers : s'.timers = s.timers

/-- What a call that fails leaves. -/
def Clean (s : State × List Nat) (a : Request) : Prop :=
  ∀ err s', exec a s.1 = some (err, s') → err < 0 → Unchanged s.1 s'

end Salsa.Device.Handles
