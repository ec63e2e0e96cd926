import Salsa.Device.Open

/-!
# What opening a device leaves

The helpers of `snd_pcm_open` and `snd_rawmidi_open`, and what each of them leaves of the descriptors
and the objects.
-/

namespace Salsa.Device

open Prog Descriptors Pcm

/-! ## Calls and subdevices -/

theorem keeps_noMemory : Keeps noMemory := fun t => ⟨(), _, rfl, same_fail t 12⟩

theorem sys_keeps {α : Type} (m : Prog Table α) (s : State) (h : Keeps m) (post : α → State → Prop)
    (hpost : ∀ a t, Same s.table t → post a { s with table := t }) : Wp (sys m) s post :=
  sys_wp m s post ((h s.table).mono fun a t hsame => hpost a t hsame)

theorem sys_negErrno (s : State) (post : Int → State → Prop) (hpos : 0 < s.table.errno)
    (hpost : ∀ err < 0, post err s) : Wp (sys negErrno) s post := by
  apply sys_wp
  refine (negErrno_wp s.table).mono fun r t ⟨hr, ht⟩ => ?_
  subst hr ht
  exact hpost _ (by omega)

/-- The ioctl for the subdevice succeeds, `-errno` is 0, and that is taken for a descriptor. -/
def Prompts (o : SubdevAnswers) (t : Table) : Prop := o.control.fails = none ∧ o.prefer = none ∧ t.errno = 0

/-- The subdevice is opened, and it is the one asked for. -/
def Prefers (o : SubdevAnswers) (info : Except Errno Int) (subdev : Int) : Prop :=
  o.control.fails = none ∧ o.prefer ≠ none ∧ o.device.fails = none ∧ info.toOption.getD (-1) = subdev

theorem open_preferred_wp (o : SubdevAnswers) (info : Except Errno Int) (subdev : Int) (t : Table)
    (h : ¬ Prompts o t) : Wp (open_preferred o info subdev) t fun fd t' =>
      (fd < 0 ∧ Same t t' ∧ ¬ Prefers o info subdev) ∨
        (0 ≤ fd ∧ Opened fd.toNat t t' ∧ Prefers o info subdev) := by
  apply wp_bind
  refine (open_subdev_wp o t).mono fun fd t1 hfd => ?_
  rcases hfd with ⟨hneg, hsame, -, hnot⟩ | ⟨hpos, hopened, hcontrol, hprefer, hdevice⟩ |
    ⟨-, -, hcontrol, hprefer, herrno⟩
  · rw [if_pos hneg]
    exact wp_pure fd t1 _ (Or.inl ⟨hneg, hsame, fun h => hnot ⟨h.1, h.2.1, h.2.2.1⟩⟩)
  · rw [if_neg (Int.not_lt.mpr hpos)]
    apply wp_bind
    refine (get_subdev_wp info t1).mono fun subdevice t2 ⟨hsame, hsubdevice⟩ => ?_
    have hopened := hopened.same hsame
    apply wp_ite
    · intro hne
      apply wp_bind
      refine (closeFile_wp fd.toNat t2 hopened.mem).mono fun _ t3 ⟨hclosed, _⟩ => ?_
      exact wp_pure _ t3 _ (Or.inl ⟨by decide, hopened.closed hclosed, fun h => hne (hsubdevice.trans h.2.2.2)⟩)
    · intro heq
      exact wp_pure fd t2 _ (Or.inr ⟨hpos, hopened, hcontrol, hprefer, hdevice, hsubdevice.symm.trans (not_not.mp heq)⟩)
  · exact absurd ⟨hcontrol, hprefer, herrno⟩ h

/-- Descriptor 0 is taken for the new one, or closed. -/
theorem open_preferred_prompts (o : SubdevAnswers) (info : Except Errno Int) (subdev : Int) (t t' : Table) (fd : Int)
    (h : Prompts o t) (hopen : open_preferred o info subdev t = some (fd, t')) :
    (fd = 0 ∧ Same t t') ∨ (fd < 0 ∧ Closed 0 t t') := by
  obtain ⟨zero, t1, hsubdev, hrest⟩ := bind_eq_some _ _ _ _ _ hopen
  obtain ⟨rfl, hsame⟩ : zero = 0 ∧ Same t t1 := by
    rcases (open_subdev_wp o t).unique hsubdev with ⟨-, -, hnot, -⟩ | ⟨-, -, -, hnot, -⟩ | ⟨hzero, hsame, -⟩
    · exact absurd h hnot
    · exact absurd h.2.1 hnot
    · exact ⟨hzero, hsame⟩
  rw [if_neg (Int.lt_irrefl 0)] at hrest
  obtain ⟨subdevice, t2, hsubdevice, hrest⟩ := bind_eq_some _ _ _ _ _ hrest
  have hsame := hsame.trans ((get_subdev_wp info t1).unique hsubdevice).1
  split at hrest
  · obtain ⟨_, t3, hclose, hrest⟩ := bind_eq_some _ _ _ _ _ hrest
    by_cases hmem : 0 ∈ t2.fds
    · obtain ⟨rfl, rfl⟩ := Prod.mk.inj (Option.some.inj hrest)
      exact Or.inr ⟨by decide, hsame.closed ((closeFile_wp 0 t2 hmem).unique hclose).1⟩
    · rw [Int.toNat_zero, closeFile_none 0 t2 hmem] at hclose
      cases hclose
  · obtain ⟨rfl, rfl⟩ := Prod.mk.inj (Option.some.inj hrest)
    exact Or.inl ⟨rfl, hsame⟩

theorem open_plain_wp (o : OpenAnswer) (t : Table) : Wp (do
    let fd ← openFile o
    if fd < 0 then negErrno else return fd) t fun fd t' =>
      (fd < 0 ∧ Same t t' ∧ o.fails ≠ none) ∨ (0 ≤ fd ∧ Opened fd.toNat t t' ∧ o.fails = none) := by
  apply wp_bind
  refine (openFile_wp o t).mono fun fd t1 h => ?_
  rcases h with ⟨hneg, hfails, hsame, herrno⟩ | ⟨hpos, hworks, hopened, -⟩
  · rw [if_pos hneg]
    refine (negErrno_wp t1).mono fun r t' ⟨hr, ht⟩ => ?_
    subst hr ht
    exact Or.inl ⟨by omega, hsame, hfails⟩
  · rw [if_neg (Int.not_lt.mpr hpos)]
    exact wp_pure fd t1 _ (Or.inr ⟨hpos, hopened, hworks⟩)

/-! ## PCMs -/

theorem open_pcm_device_wp (o : PcmAnswers) (subdev : Int) (t : Table) (h : 0 ≤ subdev → ¬ Prompts o.subdev t) :
    Wp (open_pcm_device o subdev) t fun r t' =>
      (r.1 < 0 ∧ Same t t') ∨ (0 ≤ r.1 ∧ Opened r.1.toNat t t') := by
  apply wp_ite
  · intro hsubdev
    apply wp_bind
    refine (open_preferred_wp o.subdev o.info subdev t (h hsubdev)).mono fun fd t1 hfd => ?_
    apply wp_pure
    rcases hfd with ⟨hneg, hsame, -⟩ | ⟨hpos, hopened, -⟩
    · exact Or.inl ⟨hneg, hsame⟩
    · exact Or.inr ⟨hpos, hopened⟩
  · intro _
    apply wp_bind
    refine (openFile_wp o.device t).mono fun fd t1 hfd => ?_
    rcases hfd with ⟨hneg, -, hsame, herrno⟩ | ⟨hpos, -, hopened, -⟩
    · rw [if_pos hneg]
      apply wp_bind
      refine (negErrno_wp t1).mono fun r t' ⟨hr, ht⟩ => ?_
      subst hr ht
      exact wp_pure _ _ _ (Or.inl ⟨by omega, hsame⟩)
    · rw [if_neg (Int.not_lt.mpr hpos)]
      apply wp_bind
      refine (get_subdev_wp o.info t1).mono fun subdevice t2 ⟨hsame, _⟩ => ?_
      have hopened := hopened.same hsame
      apply wp_ite
      · intro _
        apply wp_bind
        refine (closeFile_wp fd.toNat t2 hopened.mem).mono fun _ t3 ⟨hclosed, _⟩ => ?_
        have hbusy : -EBUSY < (0 : Int) := by decide
        exact wp_pure _ t3 _ (Or.inl ⟨hbusy, hopened.closed hclosed⟩)
      · intro _
        exact wp_pure _ t2 _ (Or.inr ⟨hpos, hopened⟩)

theorem open_pcm_device_prompts (o : PcmAnswers) (subdev : Int) (t t' : Table) (r : Int × Int) (hsubdev : 0 ≤ subdev)
    (h : Prompts o.subdev t) (hopen : open_pcm_device o subdev t = some (r, t')) :
    (r.1 = 0 ∧ Same t t') ∨ (r.1 < 0 ∧ Closed 0 t t') := by
  unfold open_pcm_device at hopen
  rw [if_pos hsubdev] at hopen
  obtain ⟨fd, t1, hfd, hrest⟩ := bind_eq_some _ _ _ _ _ hopen
  obtain ⟨rfl, rfl⟩ := Prod.mk.inj (Option.some.inj hrest)
  exact open_preferred_prompts o.subdev o.info subdev t t1 fd h hfd

theorem mmap_status_wp (o : PcmAnswers) (t : Table) : Wp (snd_pcm_hw_mmap_status o) t fun r t' =>
    Same t t' ∧ ∀ err, r = .error err → err < 0 := by
  apply wp_bind
  refine (keeps_call o.mmap_status t).mono fun status t1 hsame => ?_
  apply wp_bind
  refine (keeps_ite _ _ (keeps_pure status) (keeps_call o.mmap_control) t1).mono fun control t2 hsame' => ?_
  have hsame := hsame.trans hsame'
  apply wp_ite
  · exact fun _ => wp_pure _ t2 _ ⟨hsame, fun err h => nomatch h⟩
  · intro _
    apply wp_ite
    · intro _
      apply wp_bind
      refine (keeps_call o.sync_ptr t2).mono fun _ t3 hsame' => ?_
      exact wp_pure _ t3 _ ⟨hsame.trans hsame', fun err h => nomatch h⟩
    · intro _
      apply wp_bind
      refine (keeps_noMemory t2).mono fun _ t3 hsame' => ?_
      refine wp_pure _ t3 _ ⟨hsame.trans hsame', fun err h => ?_⟩
      obtain rfl := Except.error.inj h
      decide

/-- Nothing but the descriptors and a PCM with the one that was opened. -/
def AddsPcm (s : State) (fd : Int) (calloc : Option Nat) (r : Except Int Nat) (s' : State) : Prop :=
  Same s.table s'.table ∧ s'.hws = s.hws ∧ s'.rmidis = s.rmidis ∧
    ((∃ err, r = .error err ∧ err < 0 ∧ s'.pcms = s.pcms) ∨
      ∃ addr pcm, r = .ok addr ∧ calloc = some addr ∧ pcm.fd = fd.toNat ∧
        s'.pcms = Function.update s.pcms addr (some pcm))

theorem init_pcm_wp (o : PcmAnswers) (stream : SndPcmStream) (mode : BitVec 32) (name : DeviceName) (subdev fd : Int)
    (s : State) : Wp (init_pcm o stream mode name subdev fd) s fun r s' => AddsPcm s fd o.calloc r s' := by
  have hfail : ∀ (t : Table) (err : Int), Same s.table t → err < 0 →
      AddsPcm s fd o.calloc (.error err) { s with table := t } := fun t err hsame herr =>
    ⟨hsame, rfl, rfl, Or.inl ⟨err, rfl, herr, rfl⟩⟩
  apply wp_bind
  refine sys_keeps _ s (keeps_ite _ _ (keeps_call o.fcntl) (keeps_pure 0)) _ fun _ t1 hsame => ?_
  apply wp_bind
  refine sys_wp _ _ _ ((ioctl_wp o.pversion t1).mono fun ver t2 ⟨hsame', _, herrno⟩ => ?_)
  have hsame := hsame.trans hsame'
  cases ver with
  | none =>
    apply wp_bind
    exact sys_negErrno _ _ (herrno rfl) fun err herr => wp_pure _ _ _ (hfail t2 err hsame herr)
  | some ver =>
    apply wp_bind
    have huser : Wp (if SNDRV_PROTOCOL_VERSION 2 0 14 ≤ ver then call o.user_pversion else pure 0) t2 fun r t3 =>
        Same t2 t3 ∧ (r < 0 → 0 < t3.errno) := by
      apply wp_ite
      · intro _
        refine (call_wp o.user_pversion t2).mono fun r t3 ⟨hsame, hr⟩ => ⟨hsame, fun hneg => ?_⟩
        rcases hr with ⟨-, e, -, herrno⟩ | ⟨rfl, -, -⟩
        · rw [herrno]
          exact e.property
        · exact absurd hneg (Int.lt_irrefl 0)
      · exact fun _ => wp_pure 0 t2 _ ⟨Same.refl t2, fun h => absurd h (Int.lt_irrefl 0)⟩
    refine sys_wp _ _ _ (huser.mono fun r t3 ⟨hsame', herrno⟩ => ?_)
    have hsame := hsame.trans hsame'
    apply wp_ite
    · intro hneg
      apply wp_bind
      exact sys_negErrno _ _ (herrno hneg) fun err herr => wp_pure _ _ _ (hfail t3 err hsame herr)
    · intro _
      cases hcalloc : o.calloc with
      | none =>
        apply wp_bind
        refine sys_keeps _ _ keeps_noMemory _ fun _ t4 hsame' => ?_
        exact wp_pure _ _ _ (hcalloc ▸ hfail t4 _ (hsame.trans hsame') (by decide))
      | some addr =>
        apply wp_bind
        refine sys_wp _ _ _ ((mmap_status_wp o t3).mono fun r t4 ⟨hsame', herr⟩ => ?_)
        have hsame := hsame.trans hsame'
        cases r with
        | error err => exact wp_pure _ _ _ (hcalloc ▸ hfail t4 err hsame (herr err rfl))
        | ok sync_ptr =>
          exact ⟨.ok addr, _, rfl, hsame, rfl, rfl, Or.inr ⟨addr, _, rfl, rfl, rfl, rfl⟩⟩

/-! ## Raw MIDI -/

def Gets (o : RawmidiAnswers) (subdev : Int) : Prop :=
  if 0 ≤ subdev then Prefers o.subdev o.info subdev else o.device.fails = none

theorem open_rawmidi_device_wp (o : RawmidiAnswers) (subdev : Int) (t : Table)
    (h : 0 ≤ subdev → ¬ Prompts o.subdev t) : Wp (open_rawmidi_device o subdev) t fun fd t' =>
      (fd < 0 ∧ Same t t' ∧ ¬ Gets o subdev) ∨ (0 ≤ fd ∧ Opened fd.toNat t t' ∧ Gets o subdev) := by
  unfold Gets
  apply wp_ite
  · intro hsubdev
    rw [if_pos hsubdev]
    exact open_preferred_wp o.subdev o.info subdev t (h hsubdev)
  · intro hsubdev
    rw [if_neg hsubdev]
    exact (open_plain_wp o.device t).mono fun fd t' hfd => by
      rcases hfd with ⟨hneg, hsame, hfails⟩ | ⟨hpos, hopened, hworks⟩
      · exact Or.inl ⟨hneg, hsame, hfails⟩
      · exact Or.inr ⟨hpos, hopened, hworks⟩

theorem open_rawmidi_device_prompts (o : RawmidiAnswers) (subdev : Int) (t t' : Table) (fd : Int)
    (hsubdev : 0 ≤ subdev) (h : Prompts o.subdev t) (hopen : open_rawmidi_device o subdev t = some (fd, t')) :
    (fd = 0 ∧ Same t t') ∨ (fd < 0 ∧ Closed 0 t t') := by
  unfold open_rawmidi_device at hopen
  rw [if_pos hsubdev] at hopen
  exact open_preferred_prompts o.subdev o.info subdev t t' fd h hopen

/-- The record at `hw` is new, and the handles are those that use it. -/
structure Made (s : State) (fd hw : Nat) (handles : List Nat) (s' : State) : Prop where
  pcms : s'.pcms = s.pcms
  hws : ∃ name, s'.hws = Function.update s.hws hw (some ⟨name, fd, handles.length⟩)
  nodup : handles.Nodup
  handle : ∀ r ∈ handles, ∃ rmidi, s'.rmidis r = some rmidi ∧ rmidi.fd = fd ∧ rmidi.hw = hw
  rest : ∀ r, r ∉ handles → s'.rmidis r = s.rmidis r

theorem Made.keep {s s' : State} {fd hw : Nat} {handles : List Nat} (h : Made s fd hw handles s') (t : Table) :
    Made s fd hw handles { s' with table := t } := ⟨h.pcms, h.hws, h.nodup, h.handle, h.rest⟩

theorem Made.over {s s' : State} {fd hw : Nat} {handles : List Nat} {t : Table}
    (h : Made { s with table := t } fd hw handles s') : Made s fd hw handles s' :=
  ⟨h.pcms, h.hws, h.nodup, h.handle, h.rest⟩

theorem Made.snoc {s s' : State} {fd hw r : Nat} {handles : List Nat} {name : Option (List Char)}
    (h : Made s fd hw handles s') (hhws : s'.hws = Function.update s.hws hw (some ⟨name, fd, handles.length⟩))
    (hr : r ∉ handles) (rmidi : SndRawmidi) (hfd : rmidi.fd = fd) (hhw : rmidi.hw = hw) :
    Made s fd hw (handles ++ [r]) ((s'.set_rmidi r (some rmidi)).set_hw hw
      (some ⟨name, fd, handles.length + 1⟩)) where
  pcms := h.pcms
  hws := by
    refine ⟨name, ?_⟩
    show Function.update s'.hws hw _ = _
    rw [hhws, Function.update_idem, List.length_append, List.length_singleton, Nat.cast_succ]
  nodup := by
    rw [List.nodup_append_comm]
    exact List.nodup_cons.mpr ⟨hr, h.nodup⟩
  handle x hx := by
    show ∃ y, Function.update s'.rmidis r (some rmidi) x = some y ∧ _
    by_cases hxr : x = r
    · rw [hxr, Function.update_self]
      exact ⟨rmidi, rfl, hfd, hhw⟩
    · rw [Function.update_of_ne hxr]
      rcases List.mem_append.mp hx with hx | hx
      · exact h.handle x hx
      · exact absurd (List.mem_singleton.mp hx) hxr
  rest x hx := by
    have hxr : x ≠ r := fun heq => hx (List.mem_append_right _ (List.mem_singleton.mpr heq))
    have hmem : x ∉ handles := fun hmem => hx (List.mem_append_left _ hmem)
    show Function.update s'.rmidis r (some rmidi) x = s.rmidis x
    rw [Function.update_of_ne hxr]
    exact h.rest x hmem

theorem new_rmidi_wp (o : RmidiAnswers) (s s' : State) (fd hw : Nat) (handles : List Nat) (stream : SndRawmidiStream)
    (mode : BitVec 32) (h : Made s fd hw handles s') (hnew : ∀ r, o.calloc = some r → r ∉ handles) :
    Wp (new_rmidi o hw stream mode) s' fun r s'' =>
      r = o.calloc ∧ Same s'.table s''.table ∧ Made s fd hw (handles ++ r.toList) s'' := by
  obtain ⟨name, hhws⟩ := h.hws
  unfold new_rmidi
  cases hcalloc : o.calloc with
  | none =>
    apply wp_bind
    refine sys_keeps _ s' keeps_noMemory _ fun _ t hsame => ?_
    refine wp_pure _ _ _ ⟨rfl, hsame, ?_⟩
    rw [Option.toList_none, List.append_nil]
    exact h.keep t
  | some r =>
    have hrecord : s'.hws hw = some ⟨name, fd, handles.length⟩ := by rw [hhws, Function.update_self]
    apply wp_get
    rw [hrecord]
    apply wp_bind
    apply wp_modify
    apply wp_bind
    refine sys_keeps _ _ (keeps_call o.params) _ fun _ t hsame => ?_
    refine wp_pure _ _ _ ⟨rfl, hsame, ?_⟩
    exact (h.snoc hhws (hnew r hcalloc) _ rfl rfl).keep t

theorem wanted_wp (wanted : Bool) (o : RmidiAnswers) (s s' : State) (fd hw : Nat) (handles : List Nat)
    (stream : SndRawmidiStream) (mode : BitVec 32) (h : Made s fd hw handles s')
    (hnew : ∀ r, o.calloc = some r → r ∉ handles) :
    Wp (if wanted then new_rmidi o hw stream mode else pure none : Prog State (Option Nat)) s' fun r s'' =>
      r = (if wanted then o.calloc else none) ∧ Same s'.table s''.table ∧
        Made s fd hw (handles ++ r.toList) s'' := by
  apply wp_ite
  · intro hwanted
    rw [if_pos hwanted]
    exact new_rmidi_wp o s s' fd hw handles stream mode h hnew
  · intro hwanted
    rw [if_neg hwanted]
    refine wp_pure _ _ _ ⟨rfl, Same.refl _, ?_⟩
    rw [Option.toList_none, List.append_nil]
    exact h

/-- Memory runs out for the output, when the input is there. -/
def HalfMade (o : RawmidiAnswers) (input output : Bool) : Prop :=
  o.pversion = none ∧ o.hw.isSome ∧ input ∧ o.input.calloc.isSome ∧ output ∧ o.output.calloc = none

/-- The addresses that memory is given out at are not in use. -/
structure Fresh (o : RawmidiAnswers) (s : State) : Prop where
  hw : ∀ hw, o.hw = some hw → s.hws hw = none
  input : ∀ r, o.input.calloc = some r → s.rmidis r = none
  output : ∀ r, o.output.calloc = some r → s.rmidis r = none
  apart : ∀ r, o.output.calloc = some r → o.input.calloc ≠ some r

theorem Fresh.not_mem {o : RawmidiAnswers} {s : State} (h : Fresh o s) (input : Bool) (r : Nat)
    (hr : o.output.calloc = some r) : r ∉ (if input then o.input.calloc else none).toList := by
  intro hmem
  have hmem := Option.mem_toList.mp hmem
  split at hmem
  · exact h.apart r hr hmem
  · cases hmem

/-- How far `snd_rawmidi_open` gets with its descriptor: not to a handle, to the input alone, or to the end. -/
def Initiates (o : RawmidiAnswers) (input output : Bool) (s : State) (fd : Nat)
    (r : Except (Int × Option Nat) (Option Nat × Option Nat)) (s' : State) : Prop :=
  Same s.table s'.table ∧
    ((∃ err, r = .error (err, none) ∧ err < 0 ∧ ¬ HalfMade o input output ∧ s'.pcms = s.pcms ∧
      s'.rmidis = s.rmidis ∧ ∀ hw, s.hws hw ≠ none → s'.hws hw = s.hws hw) ∨
    (∃ err hw rmidi, r = .error (err, some rmidi) ∧ HalfMade o input output ∧ Made s fd hw [rmidi] s') ∨
    ∃ hw in_rmidi out_rmidi, r = .ok (in_rmidi, out_rmidi) ∧ ¬ HalfMade o input output ∧ o.hw = some hw ∧
      in_rmidi = (if input then o.input.calloc else none) ∧ out_rmidi = (if output then o.output.calloc else none) ∧
      (input → in_rmidi ≠ none) ∧ (output → out_rmidi ≠ none) ∧
      Made s fd hw (in_rmidi.toList ++ out_rmidi.toList) s')

theorem Made.leak {s s' : State} {fd hw : Nat} (h : Made s fd hw [] s') (hfree : s.hws hw = none) :
    s'.rmidis = s.rmidis ∧ ∀ x, s.hws x ≠ none → s'.hws x = s.hws x := by
  obtain ⟨name, hhws⟩ := h.hws
  refine ⟨funext fun r => h.rest r (List.not_mem_nil), fun x hx => ?_⟩
  have hne : x ≠ hw := by
    rintro rfl
    exact hx hfree
  rw [hhws, Function.update_of_ne hne]

theorem init_rawmidi_wp (o : RawmidiAnswers) (input output : Bool) (name : List Char) (mode : BitVec 32) (fd : Int)
    (s : State) (hfresh : Fresh o s) :
    Wp (init_rawmidi o input output name mode fd) s fun r s' => Initiates o input output s fd.toNat r s' := by
  have hnomem : -ENOMEM < (0 : Int) := by decide
  apply wp_bind
  refine sys_wp _ _ _ ((call_wp o.pversion s.table).mono fun r t1 ⟨hsame, hr⟩ => ?_)
  rcases hr with ⟨hneg, e, he, herrno⟩ | ⟨rfl, hpversion, rfl⟩
  · rw [if_pos hneg]
    have hpos : 0 < t1.errno := herrno ▸ e.property
    have hhalf : ¬ HalfMade o input output := fun h => Option.some_ne_none e (he.symm.trans h.1)
    apply wp_bind
    refine sys_negErrno _ _ hpos fun err herr => wp_pure _ _ _ ?_
    exact ⟨hsame, Or.inl ⟨err, rfl, herr, hhalf, rfl, rfl, fun _ _ => rfl⟩⟩
  rw [if_neg (Int.lt_irrefl 0)]
  cases hhw : o.hw with
  | none =>
    apply wp_bind
    refine sys_keeps _ _ keeps_noMemory _ fun _ t hsame => wp_pure _ _ _ ?_
    have hhalf : ¬ HalfMade o input output := fun h => by
      have hsome := h.2.1
      rw [hhw] at hsome
      cases hsome
    exact ⟨hsame, Or.inl ⟨_, rfl, hnomem, hhalf, rfl, rfl, fun _ _ => rfl⟩⟩
  | some hw =>
    have hfree := hfresh.hw hw hhw
    apply wp_bind
    refine sys_keeps _ _ (keeps_ite _ _ (keeps_pure ()) keeps_noMemory) _ fun _ t hsame => ?_
    apply wp_bind
    apply wp_modify
    generalize hs0 : State.set_hw { s with table := t } hw
      (some ⟨if o.strdup then some name else none, fd.toNat, 0⟩) = s0
    have hsame0 : Same s.table s0.table := hs0 ▸ hsame
    have hmade : Made s fd.toNat hw [] s0 := hs0 ▸
      ⟨rfl, ⟨_, rfl⟩, List.nodup_nil, fun r hr => absurd hr List.not_mem_nil, fun _ _ => rfl⟩
    apply wp_bind
    have hin := wanted_wp input o.input s s0 fd.toNat hw [] .input mode hmade fun _ _ => List.not_mem_nil
    refine hin.mono fun in_rmidi s1 ⟨hin_rmidi, hsame1, hmade⟩ => ?_
    have hsame1 := hsame0.trans hsame1
    apply wp_ite
    · rintro ⟨hinput, rfl⟩
      refine wp_pure _ _ _ ⟨hsame1, Or.inl ⟨_, rfl, hnomem, ?_, hmade.pcms, hmade.leak hfree⟩⟩
      rintro ⟨-, -, -, hsome, -⟩
      rw [if_pos hinput] at hin_rmidi
      rw [← hin_rmidi] at hsome
      cases hsome
    intro hgot
    apply wp_bind
    have hapart : ∀ r, o.output.calloc = some r → r ∉ in_rmidi.toList := by
      rw [hin_rmidi]
      exact hfresh.not_mem input
    have hout := wanted_wp output o.output s s1 fd.toNat hw in_rmidi.toList .output mode hmade hapart
    refine hout.mono fun out_rmidi s2 ⟨hout_rmidi, hsame2, hmade'⟩ => ?_
    have hsame2 := hsame1.trans hsame2
    apply wp_ite
    · rintro ⟨houtput, rfl⟩
      rw [if_pos houtput] at hout_rmidi
      cases in_rmidi with
      | none =>
        refine wp_pure _ _ _ ⟨hsame2, Or.inl ⟨_, rfl, hnomem, ?_, hmade'.pcms, hmade'.leak hfree⟩⟩
        exact fun h => hgot ⟨h.2.2.1, rfl⟩
      | some r =>
        have hinput : input := by
          by_contra hnot
          rw [if_neg hnot] at hin_rmidi
          cases hin_rmidi
        rw [if_pos hinput] at hin_rmidi
        refine wp_pure _ _ _ ⟨hsame2, Or.inr (Or.inl ⟨_, hw, r, rfl, ?_, hmade'⟩)⟩
        exact ⟨hpversion, hhw ▸ rfl, hinput, hin_rmidi ▸ rfl, houtput, hout_rmidi.symm⟩
    · intro hgot'
      refine wp_pure _ _ _ ⟨hsame2, Or.inr (Or.inr ⟨hw, in_rmidi, out_rmidi, rfl, ?_, hhw, hin_rmidi, hout_rmidi,
        fun hinput hnone => hgot ⟨hinput, hnone⟩, fun houtput hnone => hgot' ⟨houtput, hnone⟩, hmade'⟩)⟩
      rintro ⟨-, -, -, -, houtput, hnone⟩
      rw [if_pos houtput, hnone] at hout_rmidi
      exact hgot' ⟨houtput, hout_rmidi⟩

end Salsa.Device
