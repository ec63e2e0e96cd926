import Salsa.Errno
import Salsa.Lib.CText
import Salsa.Lib.Descriptors

/-!
# Cards and device names

`cards.c`: the device that a name stands for, and the descriptor of one of its subdevices. What the
system answers comes with each call, as do the names of the cards; the paths that it is asked for are
left out.
-/

namespace Salsa.Device

open Prog Descriptors CText

def SALSA_MAX_CARDS : Nat := 32
def SALSA_MAX_DEVICES : Int := 32

structure SndCtlCardInfo where
  card : Int
  id : List Char

/-- The answers to `open` and to `SNDRV_CTL_IOCTL_CARD_INFO`. -/
structure CardAnswers where
  control : OpenAnswer
  info : Except Errno SndCtlCardInfo

/-- What the system answers while a name is looked up: for a path, and for each card. -/
structure Lookup where
  path : CardAnswers
  access : Nat → Option Errno
  card : Nat → CardAnswers

def ioctl {α : Type} (answer : Except Errno α) : Prog Table (Option α) := do
  match answer with
  | .error e =>
    let _ ← call (some e)
    return none
  | .ok info => return some info

def load_card_info (o : CardAnswers) : Prog Table (Except Int SndCtlCardInfo) := do
  let open_dev ← openFile o.control
  if open_dev < 0 then do
    let err ← negErrno
    return .error err
  else do
    match ← ioctl o.info with
    | none =>
      closeFile open_dev.toNat
      let err ← negErrno
      return .error err
    | some info =>
      closeFile open_dev.toNat
      return .ok info

def snd_card_load2 (o : CardAnswers) : Prog Table Int := do
  match ← load_card_info o with
  | .error err => return err
  | .ok info => return info.card

def snd_card_load (o : Lookup) (card : Nat) : Prog Table Bool := do
  let r ← call (o.access card)
  return r = 0

/-- The loop of `snd_card_get_index` over the cards. -/
def find_card (o : Lookup) (string : List Char) : List Nat → Prog Table Int
  | [] => return -ENODEV
  | card :: cards => do
    match ← load_card_info (o.card card) with
    | .error _ => find_card o string cards
    | .ok info => if info.id = string then return card else find_card o string cards

def snd_card_get_index (o : Lookup) (string : List Char) : Prog Table Int :=
  if string = [] then return -EINVAL
  else if string.head? = some '/' then snd_card_load2 o.path
  else
    match scanAnyInt string with
    | some card =>
      if card.toInt < 0 ∨ card.toInt ≥ SALSA_MAX_CARDS then return -EINVAL
      else do
        let found ← snd_card_load o card.toNat
        return if found then card.toInt else -ENODEV
    | none => find_card o string (List.range SALSA_MAX_CARDS)

structure DeviceName where
  card : Int
  dev : Int
  subdev : Int
deriving DecidableEq

/-- `sscanf(name, ",%d,%d", devp, subdevp)` -/
def scan_device (device : DeviceName) (name : List Char) : DeviceName :=
  match (scanLiteral [','] name).bind scanIntRest with
  | none => device
  | some (dev, rest) =>
    match (scanLiteral [','] rest).bind scanIntRest with
    | none => { device with dev := dev.toInt }
    | some (subdev, _) => { device with dev := dev.toInt, subdev := subdev.toInt }

def strip_prefix (name : List Char) : Option (List Char) :=
  (scanLiteral "hw:".toList name).orElse fun _ =>
    (scanLiteral "default:".toList name).orElse fun _ => scanLiteral "sysdefault:".toList name

/-- The second and the third argument, if there are any. -/
def parse_device (card : Int) (name : List Char) : Except Int DeviceName :=
  let name := name.dropWhile (· ≠ ',')
  let device := scan_device ⟨card, 0, -1⟩ name
  if name ≠ [] ∧ (device.dev < 0 ∨ device.dev ≥ SALSA_MAX_DEVICES) then .error (-EINVAL)
  else .ok device

def _snd_dev_get_device (o : Lookup) (name : List Char) : Prog Table (Except Int DeviceName) :=
  if name = "hw".toList ∨ name = "default".toList ∨ name = "sysdefault".toList then return .ok ⟨0, 0, -1⟩
  else
    match strip_prefix name with
    | none => return .error (-EINVAL)
    | some name => do
      let card ← snd_card_get_index o name
      if card < 0 then return .error card
      else return parse_device card name

/-- `_snd_dev_get_device` with NULL for `devp` or `subdevp`, where no numbers are parsed. -/
def _snd_dev_get_card (o : Lookup) (name : List Char) : Prog Table (Except Int Int) :=
  if name = "hw".toList ∨ name = "default".toList ∨ name = "sysdefault".toList then return .ok 0
  else
    match strip_prefix name with
    | none => return .error (-EINVAL)
    | some name => do
      let card ← snd_card_get_index o name
      return if card < 0 then .error card else .ok card

/-! ## A subdevice -/

structure SubdevAnswers where
  control : OpenAnswer
  prefer : Option Errno
  device : OpenAnswer

/-- The ioctl that prefers a subdevice is taken for failed when it succeeds. -/
def _snd_open_subdev (o : SubdevAnswers) : Prog Table Int := do
  let ctl ← openFile o.control
  if ctl < 0 then negErrno
  else do
    let r ← call o.prefer
    let fd ← (if r ≥ 0 then pure (-1) else openFile o.device : Prog Table Int)
    closeFile ctl.toNat
    if fd < 0 then negErrno else return fd

/-- `get_pcm_subdev` and `get_rawmidi_subdev` -/
def get_subdev (info : Except Errno Int) : Prog Table Int := do
  match ← ioctl info with
  | none => return -1
  | some subdevice => return subdevice

/-! ## What a lookup leaves -/

theorem keeps_ioctl {α : Type} (answer : Except Errno α) : Keeps (ioctl answer) := by
  cases answer with
  | error e => exact keeps_bind _ _ (keeps_call (some e)) fun _ => keeps_pure _
  | ok info => exact keeps_pure _

theorem keeps_load_card_info (o : CardAnswers) : Keeps (load_card_info o) := by
  intro t
  apply wp_bind
  refine (openFile_wp o.control t).mono fun fd t1 h => ?_
  rcases h with ⟨hneg, -, hsame, -⟩ | ⟨hpos, -, hopened, -⟩
  · rw [if_pos hneg]
    exact (keeps_bind _ _ keeps_negErrno (fun _ => keeps_pure _) t1).mono fun _ _ h => hsame.trans h
  · rw [if_neg (Int.not_lt.mpr hpos)]
    apply wp_bind
    refine (keeps_ioctl o.info t1).mono fun info t2 hsame => ?_
    have hopened := hopened.same hsame
    cases info with
    | none =>
      apply wp_bind
      refine (closeFile_wp fd.toNat t2 hopened.mem).mono fun _ t3 hclosed => ?_
      have hsame := hopened.closed hclosed.1
      exact (keeps_bind _ _ keeps_negErrno (fun _ => keeps_pure _) t3).mono fun _ _ h => hsame.trans h
    | some info =>
      apply wp_bind
      refine (closeFile_wp fd.toNat t2 hopened.mem).mono fun _ t3 hclosed => ?_
      exact wp_pure _ t3 _ (hopened.closed hclosed.1)

theorem keeps_find_card (o : Lookup) (string : List Char) (cards : List Nat) : Keeps (find_card o string cards) := by
  induction cards with
  | nil => exact keeps_pure _
  | cons card cards ih =>
    unfold find_card
    refine keeps_bind _ _ (keeps_load_card_info _) fun r => ?_
    cases r with
    | error err => exact ih
    | ok info => exact keeps_ite _ _ (keeps_pure _) ih

theorem keeps_get_index (o : Lookup) (string : List Char) : Keeps (snd_card_get_index o string) := by
  unfold snd_card_get_index
  refine keeps_ite _ _ (keeps_pure _) (keeps_ite _ _ ?_ ?_)
  · refine keeps_bind _ _ (keeps_load_card_info _) fun r => ?_
    cases r with
    | error err => exact keeps_pure _
    | ok info => exact keeps_pure _
  · cases scanAnyInt string with
    | none => exact keeps_find_card o string _
    | some card =>
      refine keeps_ite _ _ (keeps_pure _) (keeps_bind _ _ ?_ fun _ => keeps_pure _)
      exact keeps_bind _ _ (keeps_call _) fun _ => keeps_pure _

theorem get_card_wp (o : Lookup) (name : List Char) (t : Table) : Wp (_snd_dev_get_card o name) t fun r t' =>
    Same t t' ∧ ∀ err, r = .error err → err < 0 := by
  apply wp_ite
  · exact fun _ => wp_pure _ t _ ⟨Same.refl t, fun err h => nomatch h⟩
  intro _
  cases strip_prefix name with
  | none =>
    refine wp_pure _ t _ ⟨Same.refl t, fun err h => ?_⟩
    exact Except.error.inj h ▸ (by decide : -EINVAL < 0)
  | some name =>
    apply wp_bind
    refine (keeps_get_index o name t).mono fun card t' hsame => wp_pure _ t' _ ⟨hsame, fun err h => ?_⟩
    split at h
    · exact Except.error.inj h ▸ ‹_›
    · cases h

/-- With `devp` and `subdevp` the card is looked up in the same way, and the numbers are parsed after it. -/
theorem get_device_of_card (o : Lookup) (name : List Char) : _snd_dev_get_device o name = do
    match ← _snd_dev_get_card o name with
    | .error err => return .error err
    | .ok card => return parse_device card (( strip_prefix name).getD []) := by
  unfold _snd_dev_get_device _snd_dev_get_card
  by_cases hbare : name = "hw".toList ∨ name = "default".toList ∨ name = "sysdefault".toList
  · rw [if_pos hbare, if_pos hbare]
    rcases hbare with rfl | rfl | rfl <;> rfl
  · rw [if_neg hbare, if_neg hbare]
    cases strip_prefix name with
    | none => rfl
    | some name =>
      dsimp only
      rw [bind_assoc]
      refine bind_congr fun card => ?_
      rw [pure_bind]
      split <;> rfl

theorem get_device_wp (o : Lookup) (name : List Char) (t : Table) : Wp (_snd_dev_get_device o name) t fun r t' =>
    Same t t' ∧ ∀ err, r = .error err → err < 0 := by
  rw [get_device_of_card]
  apply wp_bind
  refine (get_card_wp o name t).mono fun r t' ⟨hsame, herr⟩ => ?_
  cases r with
  | error err => exact wp_pure _ t' _ ⟨hsame, fun _ h => Except.error.inj h ▸ herr err rfl⟩
  | ok card =>
    refine wp_pure _ t' _ ⟨hsame, fun err h => ?_⟩
    unfold parse_device at h
    dsimp only at h
    split at h
    · exact Except.error.inj h ▸ (by decide : -EINVAL < 0)
    · cases h

theorem get_subdev_wp (info : Except Errno Int) (t : Table) :
    Wp (get_subdev info) t fun r t' => Same t t' ∧ r = info.toOption.getD (-1) := by
  unfold get_subdev
  cases info with
  | error e => exact ⟨-1, t.fail e, rfl, same_fail t e, rfl⟩
  | ok subdevice => exact ⟨subdevice, t, rfl, Same.refl t, rfl⟩

theorem ioctl_wp {α : Type} (answer : Except Errno α) (t : Table) : Wp (ioctl answer) t fun r t' =>
    Same t t' ∧ r = answer.toOption ∧ (r = none → 0 < t'.errno) := by
  cases answer with
  | error e => exact ⟨none, t.fail e, rfl, same_fail t e, rfl, fun _ => e.property⟩
  | ok info => exact ⟨some info, t, rfl, Same.refl t, rfl, fun h => nomatch h⟩

theorem negErrno_wp (t : Table) : Wp negErrno t fun r t' => r = -(t.errno : Int) ∧ t' = t := ⟨_, t, rfl, rfl, rfl⟩

/-- How `_snd_open_subdev` ends: with an error, with a descriptor of its own, or with 0, which is `-errno`
where no call has failed. -/
theorem open_subdev_wp (o : SubdevAnswers) (t : Table) : Wp (_snd_open_subdev o) t fun fd t' =>
    (fd < 0 ∧ Same t t' ∧ ¬ (o.control.fails = none ∧ o.prefer = none ∧ t.errno = 0) ∧
      ¬ (o.control.fails = none ∧ o.prefer ≠ none ∧ o.device.fails = none)) ∨
    (0 ≤ fd ∧ Opened fd.toNat t t' ∧ o.control.fails = none ∧ o.prefer ≠ none ∧ o.device.fails = none) ∨
    (fd = 0 ∧ Same t t' ∧ o.control.fails = none ∧ o.prefer = none ∧ t.errno = 0) := by
  apply wp_bind
  refine (openFile_wp o.control t).mono fun ctl t1 h => ?_
  rcases h with ⟨hneg, hfails, hsame, herrno⟩ | ⟨hpos, hworks, hctl, herrno⟩
  · rw [if_pos hneg]
    refine (negErrno_wp t1).mono fun r t' ⟨hr, ht⟩ => ?_
    subst hr ht
    exact Or.inl ⟨by omega, hsame, fun h => hfails h.1, fun h => hfails h.1⟩
  rw [if_neg (Int.not_lt.mpr hpos)]
  apply wp_bind
  refine (call_wp o.prefer t1).mono fun r t2 ⟨hsame, hr⟩ => ?_
  have hctl := hctl.same hsame
  apply wp_bind
  rcases hr with ⟨hneg, e, he, -⟩ | ⟨rfl, hprefer, rfl⟩
  · -- The device is opened only where the ioctl has failed.
    have hprefer : o.prefer ≠ none := he ▸ Option.some_ne_none e
    rw [if_neg (Int.not_le.mpr hneg)]
    refine (openFile_wp o.device t2).mono fun fd t3 h => ?_
    apply wp_bind
    rcases h with ⟨hfd, hfails, hsame, herrno⟩ | ⟨hfd, hdevice, hopened, -⟩
    · have hctl := hctl.same hsame
      refine (closeFile_wp ctl.toNat t3 hctl.mem).mono fun _ t4 ⟨hclosed, herrno'⟩ => ?_
      have hsame := hctl.closed hclosed
      rw [if_pos hfd]
      refine (negErrno_wp t4).mono fun r t' ⟨hr, ht⟩ => ?_
      subst hr ht
      exact Or.inl ⟨by omega, hsame, fun h => hprefer h.2.1, fun h => hfails h.2.2⟩
    · have hmem : ctl.toNat ∈ t3.fds := hopened.fds.symm ▸ Finset.mem_insert_of_mem hctl.mem
      refine (closeFile_wp ctl.toNat t3 hmem).mono fun _ t4 ⟨hclosed, _⟩ => ?_
      rw [if_neg (Int.not_lt.mpr hfd)]
      exact wp_pure fd t4 _ (Or.inr (Or.inl ⟨hfd, hctl.over hopened hclosed, hworks, hprefer, hdevice⟩))
  · rw [if_pos (Int.le_refl 0)]
    apply wp_pure
    apply wp_bind
    refine (closeFile_wp ctl.toNat t2 hctl.mem).mono fun _ t4 ⟨hclosed, herrno'⟩ => ?_
    have hsame := hctl.closed hclosed
    rw [if_pos (by decide)]
    refine (negErrno_wp t4).mono fun r t' ⟨hr, ht⟩ => ?_
    subst hr ht
    rw [herrno', herrno]
    by_cases hzero : t.errno = 0
    · exact Or.inr (Or.inr ⟨by rw [hzero]; rfl, hsame, hworks, hprefer, hzero⟩)
    · exact Or.inl ⟨by omega, hsame, fun h => hzero h.2.2, fun h => h.2.1 hprefer⟩

end Salsa.Device
