import Mathlib.Logic.Function.Basic
import Salsa.Chmap.Query
import Salsa.Chmap.Text
import Salsa.Lib.Run

/-!
# The channel map of a stream

`snd_pcm_set_chmap` and `snd_pcm_get_chmap` of `pcm.c` go through the controls of the card, which opens for each call.
What one PCM has set last is what it gets, with unknown positions behind it.
-/

namespace Salsa.Chmap.Store

open CInt Ctl Run Query
open Tlv (SndCtl)

/-- The integers of `snd_ctl_elem_value_t`, of which there are 128. -/
abbrev Longs := Nat → BitVec 64

def VALUES : Nat := 128

/-- The cards in states `κ`, with the ioctls on the controls of each. They return an errno, 0 for success. -/
structure Cards (κ : Type) where
  ctl_open : κ → CtlOpen
  elem_read : Int → SndCtlElemId → κ → Nat × Longs
  elem_write : Int → SndCtlElemId → Longs → κ → Nat × κ

/-- The fields of `snd_pcm_t` that are used here. -/
structure Pcm where
  card : Int
  device : BitVec 32
  subdevice : BitVec 32
  stream : Stream
  channels : BitVec 32

/-! ## The source -/

section Source

variable {κ : Type} (c : Cards κ)

def snd_ctl_elem_value_get_integer (val : Longs) (idx : Nat) : C (BitVec 64) :=
  if idx < VALUES then .ok (val idx) else .error .read

def snd_ctl_elem_value_set_integer (val : Longs) (idx : Nat) (v : BitVec 64) : Longs := Function.update val idx v

/-- The loop of `do_get_chmap` over `n` channels from `i` on. -/
def get_loop (val : Longs) : Nat → Nat → C (List (BitVec 32))
  | 0, _ => .ok []
  | n + 1, i => do
    let v ← snd_ctl_elem_value_get_integer val i
    let pos ← get_loop val n (i + 1)
    return v.setWidth 32 :: pos

def do_get_chmap (card : Int) (channels : Nat) (k : κ) (_ : SndCtl) (id : SndCtlElemId) (map : C (List (BitVec 32))) :
    Int × C (List (BitVec 32)) :=
  let (errno, val) := c.elem_read card id k
  if errno ≠ 0 then (-(errno : Int), map) else (0, get_loop val channels 0)

/-- `none` for NULL. -/
def snd_pcm_get_chmap (malloc : Bool) (pcm : Pcm) (k : κ) : C (Option SndPcmChmap) :=
  if ¬ malloc then return none
  else
    let (ret, pos) := do_ctl_chmap (c.ctl_open k) pcm.card pcm.device pcm.subdevice pcm.stream
      (do_get_chmap c pcm.card pcm.channels.toNat k) (.ok [])
    if ret < 0 then return none
    else do
      let pos ← pos
      return some ⟨pos⟩

/-- The loop of `do_set_chmap`, whose caller lets no more than 128 positions through. -/
def set_loop : List (BitVec 32) → Nat → Longs → Longs
  | [], _, val => val
  | pos :: rest, i, val => set_loop rest (i + 1) (snd_ctl_elem_value_set_integer val i (pos.setWidth 64))

def do_set_chmap (card : Int) (map : SndPcmChmap) (_ : SndCtl) (id : SndCtlElemId) (k : κ) : Int × κ :=
  let (errno, k) := c.elem_write card id (set_loop map.pos 0 fun _ => 0#64) k
  (-(errno : Int), k)

def snd_pcm_set_chmap (pcm : Pcm) (map : SndPcmChmap) (k : κ) : Int × κ :=
  if 128 < map.pos.length then (-EINVAL, k)
  else
    let (ret, k) := do_ctl_chmap (c.ctl_open k) pcm.card pcm.device pcm.subdevice pcm.stream
      (do_set_chmap c pcm.card map) k
    if ret = -ENOENT ∨ ret = -EPERM then (- ENXIO, k) else (ret, k)

end Source

/-! ## Runs -/

/-- One stream of one device. -/
def Pcm.Same (p q : Pcm) : Prop :=
  p.card = q.card ∧ p.device = q.device ∧ p.subdevice = q.subdevice ∧ p.stream = q.stream

instance decidableSame (p q : Pcm) : Decidable (p.Same q) :=
  inferInstanceAs (Decidable (p.card = q.card ∧ p.device = q.device ∧ p.subdevice = q.subdevice ∧ p.stream = q.stream))

def Pcm.id (p : Pcm) : SndCtlElemId := chmap_id p.device p.subdevice p.stream

/-- A map as the integers of its control; there is SND_CHMAP_UNKNOWN behind it. -/
def longs (map : SndPcmChmap) : Longs := fun i => (map.pos.getD i 0#32).setWidth 64

section Runs

variable {κ : Type} (c : Cards κ) (content : κ → Int × SndCtlElemId → Option Longs)

/-- What is known of the kernel: it keeps what it takes. -/
structure Documented : Prop where
  read : ∀ k card id val, content k (card, id) = some val → c.elem_read card id k = (0, val)
  taken : ∀ k card id val, (c.elem_write card id val k).1 = 0 →
    content (c.elem_write card id val k).2 = Function.update (content k) (card, id) (some val)
  refused : ∀ k card id val, (c.elem_write card id val k).1 ≠ 0 →
    content (c.elem_write card id val k).2 = content k

/-- The calls of all programs, and what else happens to the cards. -/
inductive Act (κ : Type)
  | set (pcm : Pcm) (map : SndPcmChmap)
  | other (k : κ)

def next (k : κ) : Act κ → κ
  | .set pcm map => (snd_pcm_set_chmap c pcm map k).2
  | .other k => k

/-- The map of the stream after a call, from that before it: what a call that returned 0 was given. -/
def latest (pcm : Pcm) (k : κ) (m : Option SndPcmChmap) : Act κ → Option SndPcmChmap
  | .set q map => if q.Same pcm ∧ (snd_pcm_set_chmap c q map k).1 = 0 then some map else m
  | .other _ => m

/-- The cards go on, and what was set last goes with them. -/
def follow (pcm : Pcm) (s : κ × Option SndPcmChmap) (a : Act κ) : Option (κ × Option SndPcmChmap) :=
  some (next c s.1 a, latest c pcm s.1 s.2 a)

/-- Nothing but the calls changes the maps. -/
def Quiet (s : κ × Option SndPcmChmap) : Act κ → Prop
  | .other k => content k = content s.1
  | _ => True

/-- The control of the stream has the map that was set last. -/
def Kept (pcm : Pcm) (s : κ × Option SndPcmChmap) : Prop :=
  ∀ map, s.2 = some map → content s.1 (pcm.card, pcm.id) = some (longs map)

end Runs

/-- What `snd_pcm_get_chmap` gives for a control with the map. -/
def got_back (malloc : Bool) (opened : Except Errno SndCtl) (channels : Nat) (map : SndPcmChmap) :
    C (Option SndPcmChmap) :=
  match opened with
  | .error _ => .ok none
  | .ok _ =>
    if ¬ malloc then .ok none
    else if channels ≤ VALUES then .ok (some ⟨(List.range channels).map fun i => map.pos.getD i 0#32⟩)
    else .error .read

/-! ## The loops -/

theorem get_loop_inside (val : Longs) (n i : Nat) (h : i + n ≤ VALUES) :
    get_loop val n i = .ok ((List.range n).map fun j => (val (i + j)).setWidth 32) := by
  induction n generalizing i with
  | zero => rfl
  | succ n ih =>
    have hi : i < VALUES := by omega
    rw [get_loop, snd_ctl_elem_value_get_integer, if_pos hi, ok_bind, ih (i + 1) (by omega), ok_bind,
      List.range_succ_eq_map, List.map_cons, List.map_map]
    simp only [Nat.add_zero, Function.comp_def, Nat.succ_eq_add_one, Nat.add_assoc, Nat.add_comm 1]
    rfl

theorem get_loop_beyond (val : Longs) (n i : Nat) (hi : i ≤ VALUES) (h : VALUES < i + n) :
    get_loop val n i = .error .read := by
  induction n generalizing i with
  | zero => omega
  | succ n ih =>
    rw [get_loop, snd_ctl_elem_value_get_integer]
    split
    · rw [ok_bind, ih (i + 1) (by omega) (by omega)]
      rfl
    · rfl

theorem set_loop_apply (rest : List (BitVec 32)) (i : Nat) (val : Longs) (j : Nat) :
    set_loop rest i val j =
      if i ≤ j ∧ j < i + rest.length then (rest.getD (j - i) 0#32).setWidth 64 else val j := by
  induction rest generalizing i val with
  | nil => exact (if_neg fun h => absurd h.2 (by simpa using h.1)).symm
  | cons pos rest ih =>
    rw [set_loop, ih, snd_ctl_elem_value_set_integer, List.length_cons]
    rcases Nat.lt_trichotomy j i with hlt | rfl | hgt
    · rw [if_neg (by omega), if_neg (by omega), Function.update_of_ne (by omega)]
    · rw [if_neg (by omega), if_pos (by omega), Function.update_self, Nat.sub_self, List.getD_cons_zero]
    · obtain ⟨d, rfl⟩ := Nat.exists_eq_add_of_lt hgt
      rw [Function.update_of_ne (by omega), show i + d + 1 - i = d + 1 by omega, List.getD_cons_succ,
        show i + d + 1 - (i + 1) = d by omega]
      exact if_congr (by omega) rfl rfl

theorem set_loop_zero (map : SndPcmChmap) : set_loop map.pos 0 (fun _ => 0#64) = longs map := by
  funext j
  rw [set_loop_apply]
  unfold longs
  split
  · rfl
  · rw [List.getD_eq_default _ _ (by omega)]
    rfl

/-! ## One call -/

theorem same_iff (p q : Pcm) : p.Same q ↔ (p.card, p.id) = (q.card, q.id) := by
  unfold Pcm.Same Pcm.id chmap_id
  rw [Prod.mk.injEq, SndCtlElemId.mk.injEq]
  simp only [true_and]
  cases p.stream <;> cases q.stream <;> simp [and_comm]

theorem do_ctl_chmap_ok {α : Type} (ctl_open : CtlOpen) (pcm : Pcm) (func : SndCtl → SndCtlElemId → α → Int × α)
    (arg : α) (ctl : SndCtl) (hopen : ctl_open pcm.card = .ok ctl) :
    do_ctl_chmap ctl_open pcm.card pcm.device pcm.subdevice pcm.stream func arg =
      (min (func ctl pcm.id arg).1 0, (func ctl pcm.id arg).2) := by
  unfold do_ctl_chmap Pcm.id
  rw [hopen]
  dsimp only
  split
  · rw [min_eq_left (by omega)]
  · rw [min_eq_right (by omega)]

theorem do_ctl_chmap_error {α : Type} (ctl_open : CtlOpen) (pcm : Pcm) (func : SndCtl → SndCtlElemId → α → Int × α)
    (arg : α) (errno : Errno) (hopen : ctl_open pcm.card = .error errno) :
    do_ctl_chmap ctl_open pcm.card pcm.device pcm.subdevice pcm.stream func arg = (errno.neg, arg) := by
  unfold do_ctl_chmap
  rw [hopen]

section Calls

variable {κ : Type} {c : Cards κ} {content : κ → Int × SndCtlElemId → Option Longs} (hc : Documented c content)

/-- The map was refused, or it is the control's. -/
def Stored (content : κ → Int × SndCtlElemId → Option Longs) (pcm : Pcm) (map : SndPcmChmap) (k : κ) (r : Int × κ) :
    Prop :=
  (r.1 < 0 ∧ content r.2 = content k) ∨
    (r.1 = 0 ∧ content r.2 = Function.update (content k) (pcm.card, pcm.id) (some (longs map)))

include hc

theorem do_set_chmap_stored (pcm : Pcm) (map : SndPcmChmap) (k : κ) :
    Stored content pcm map k (do_ctl_chmap (c.ctl_open k) pcm.card pcm.device pcm.subdevice pcm.stream
      (do_set_chmap c pcm.card map) k) := by
  cases hopen : c.ctl_open k pcm.card with
  | error errno =>
    rw [do_ctl_chmap_error _ pcm _ _ errno hopen]
    exact .inl ⟨errno.neg_lt_zero, rfl⟩
  | ok ctl =>
    rw [do_ctl_chmap_ok _ pcm _ _ ctl hopen]
    unfold do_set_chmap
    rw [set_loop_zero]
    dsimp only
    by_cases herrno : (c.elem_write pcm.card pcm.id (longs map) k).1 = 0
    · exact .inr ⟨by rw [herrno]; rfl, hc.taken k pcm.card pcm.id (longs map) herrno⟩
    · have hneg : -((c.elem_write pcm.card pcm.id (longs map) k).1 : Int) < 0 := by omega
      exact .inl ⟨lt_of_le_of_lt (min_le_left _ _) hneg, hc.refused k pcm.card pcm.id (longs map) herrno⟩

theorem set_chmap_stored (pcm : Pcm) (map : SndPcmChmap) (k : κ) :
    Stored content pcm map k (snd_pcm_set_chmap c pcm map k) := by
  have hcall := do_set_chmap_stored hc pcm map k
  unfold snd_pcm_set_chmap
  split
  · exact .inl ⟨(by decide : -EINVAL < 0), rfl⟩
  dsimp only
  split
  · rename_i hret
    rcases hcall with ⟨-, hsame⟩ | ⟨hzero, -⟩
    · exact .inl ⟨(by decide : - ENXIO < 0), hsame⟩
    · rw [hzero] at hret
      exact absurd hret (by decide)
  · exact hcall

/-- What the control has is what the call gives, as far as it opens and there is memory. -/
theorem get_chmap_eq (malloc : Bool) (pcm : Pcm) (map : SndPcmChmap) (k : κ)
    (h : content k (pcm.card, pcm.id) = some (longs map)) :
    snd_pcm_get_chmap c malloc pcm k = got_back malloc (c.ctl_open k pcm.card) pcm.channels.toNat map := by
  unfold snd_pcm_get_chmap got_back
  cases malloc with
  | false =>
    rw [if_pos (by decide)]
    cases c.ctl_open k pcm.card <;> rfl
  | true =>
    rw [if_neg (by decide)]
    cases hopen : c.ctl_open k pcm.card with
    | error errno =>
      rw [do_ctl_chmap_error _ pcm _ _ errno hopen]
      exact if_pos errno.neg_lt_zero
    | ok ctl =>
      have hread : do_get_chmap c pcm.card pcm.channels.toNat k ctl pcm.id (.ok []) =
          (0, get_loop (longs map) pcm.channels.toNat 0) := by
        unfold do_get_chmap
        rw [hc.read k pcm.card pcm.id (longs map) h]
        rfl
      rw [do_ctl_chmap_ok _ pcm _ _ ctl hopen, hread]
      dsimp only
      rw [min_self, if_neg (Int.lt_irrefl 0), if_neg (by decide)]
      split
      · rename_i hchannels
        rw [get_loop_inside _ _ 0 (by omega), ok_bind]
        simp [longs]
        rfl
      · rename_i hchannels
        rw [get_loop_beyond _ _ 0 (Nat.zero_le _) (by omega)]
        rfl

/-! ## Whole runs -/

theorem kept_step (pcm : Pcm) (s : κ × Option SndPcmChmap) (a : Act κ) (s' : κ × Option SndPcmChmap)
    (h : Kept content pcm s) (hquiet : Quiet content s a) (hstep : follow c pcm s a = some s') :
    Kept content pcm s' := by
  obtain rfl := Option.some.inj hstep
  intro map hmap
  cases a with
  | set q m =>
    unfold latest at hmap
    unfold next
    dsimp only at hmap ⊢
    rcases set_chmap_stored hc q m s.1 with ⟨hret, hsame⟩ | ⟨hret, hstored⟩
    · rw [if_neg fun hboth => by omega] at hmap
      rw [hsame]
      exact h map hmap
    · rw [hstored]
      by_cases hq : q.Same pcm
      · rw [if_pos ⟨hq, hret⟩] at hmap
        rw [(same_iff q pcm).mp hq, Function.update_self, Option.some.inj hmap]
      · rw [if_neg fun hboth => hq hboth.1] at hmap
        rw [Function.update_of_ne fun heq => hq ((same_iff q pcm).mpr heq.symm)]
        exact h map hmap
  | other k =>
    have hsame : content k = content s.1 := hquiet
    unfold next
    rw [hsame]
    exact h map hmap

end Calls

/-! ## Cards that take every map -/

/-- Two streams of one card, with three channels each. -/
def playing : Pcm := ⟨0, 0#32, 0#32, .playback, 3#32⟩

def recording : Pcm := { playing with stream := .capture }

def shelf : Cards (Int × SndCtlElemId → Option Longs) where
  ctl_open _ _ := .ok Tlv.card
  elem_read card id k :=
    match k (card, id) with
    | some val => (0, val)
    | none => (2, fun _ => 0#64)
  elem_write card id val k := (0, Function.update k (card, id) (some val))

theorem shelf_documented : Documented shelf id where
  read k card id val h := by
    unfold shelf
    dsimp only
    rw [show k (card, id) = some val from h]
  taken _ _ _ _ _ := rfl
  refused _ _ _ _ h := absurd rfl h

/-- SND_CHMAP_FL and SND_CHMAP_FR. -/
def stereo : SndPcmChmap := ⟨[3#32, 4#32]⟩

/-- SND_CHMAP_MONO. -/
def mono : SndPcmChmap := ⟨[2#32]⟩

end Salsa.Chmap.Store
