import Salsa.Device.Outcomes
import Salsa.Device.Resolve

/-!
# An explicit subdevice

`_snd_open_subdev` opens the control, asks it to prefer the subdevice and opens the device. The answer to the second
step is taken the wrong way round.
-/

namespace Salsa.Device

open Prog Descriptors Pcm

/-! ## What is expected -/

/-- All three steps succeed. -/
def Grants (o : SubdevAnswers) : Prop := o.control.fails = none ∧ o.prefer = none ∧ o.device.fails = none

/-- An errno of one of the steps. -/
def Failed (o : SubdevAnswers) (e : Errno) : Prop :=
  o.control.fails = some e ∨ o.prefer = some e ∨ o.device.fails = some e

/-- The errno of the first step that fails. -/
def FailedFirst (o : SubdevAnswers) (e : Errno) : Prop :=
  o.control.fails = some e ∨
    (o.control.fails = none ∧ (o.prefer = some e ∨ (o.prefer = none ∧ o.device.fails = some e)))

/-- What `snd_pcm_open` needs besides: it reports the subdevice, and its ioctls and its memory succeed. -/
structure PcmWorks (o : PcmAnswers) (subdev : Int) : Prop where
  info : o.info = .ok subdev
  pversion : ∃ ver, o.pversion = .ok ver
  user_pversion : o.user_pversion = none
  calloc : o.calloc ≠ none
  sync_calloc : o.sync_calloc = true
  sync_ptr : o.sync_ptr = none

structure RawmidiWorks (o : RawmidiAnswers) (subdev : Int) : Prop where
  info : o.info = .ok subdev
  pversion : o.pversion = none
  hw : o.hw ≠ none
  strdup : o.strdup = true
  input : o.input.calloc ≠ none ∧ o.input.params = none
  output : o.output.calloc ≠ none ∧ o.output.params = none

/-- A name of this subdevice. -/
def Names (lookup : Lookup) (name : List Char) (subdev : Int) (t : Table) : Prop :=
  0 ≤ subdev ∧ Wp (_snd_dev_get_device lookup name) t fun r _ => ∃ device, r = .ok device ∧ device.subdev = subdev

/-- The descriptor of the device file, which is the second file that is opened; or `-errno` of a step. And what is built
on it succeeds. -/
structure Serves (blame : SubdevAnswers → Errno → Prop) (o : SubdevAnswers) (t : Table) : Prop where
  granted : Grants o → Wp (_snd_open_subdev o) t fun r t' =>
    0 ≤ r ∧ Opened r.toNat t t' ∧ t'.file r.toNat = t.files + 1
  refused : ¬ Grants o → Wp (_snd_open_subdev o) t fun r t' => Same t t' ∧ ∃ e, blame o e ∧ r = -(e : Int)
  pcm : Grants o → ∀ (a : PcmAnswers) (s : State) (name : List Char) (stream : SndPcmStream) (mode : BitVec 32)
    (subdev : Int), a.subdev = o → s.table = t → Names a.lookup name subdev t → PcmWorks a subdev →
    Wp (snd_pcm_open a name stream mode) s fun r _ => r.1 = 0
  rawmidi : Grants o → ∀ (a : RawmidiAnswers) (s : State) (input output : Bool) (name : List Char) (mode : BitVec 32)
    (subdev : Int), a.subdev = o → s.table = t → Names a.lookup name subdev t → RawmidiWorks a subdev → Fresh a s →
    Wp (snd_rawmidi_open a input output name mode) s fun r _ => r.1 = 0

/-! ## What is returned -/

theorem openFile_fails (a : OpenAnswer) (e : Errno) (h : a.fails = some e) (t : Table) :
    Wp (openFile a) t fun r t' => r < 0 ∧ Same t t' ∧ t'.errno = e := by
  unfold openFile
  rw [h]
  exact ⟨-1, t.fail e, rfl, by decide, same_fail t e, rfl⟩

theorem openFile_works (a : OpenAnswer) (h : a.fails = none) (t : Table) :
    Wp (openFile a) t fun r t' => 0 ≤ r ∧ Opened r.toNat t t' ∧ t'.errno = t.errno := by
  refine (openFile_wp a t).mono fun r t' hr => ?_
  rcases hr with ⟨-, hfails, -, -⟩ | ⟨hpos, -, hopened, herrno⟩
  · exact absurd h hfails
  · exact ⟨hpos, hopened, herrno⟩

section Subdev

variable (o : SubdevAnswers) (t : Table)

theorem open_subdev_control (e : Errno) (h : o.control.fails = some e) :
    Wp (_snd_open_subdev o) t fun r t' => Same t t' ∧ r = -(e : Int) := by
  apply wp_bind
  refine (openFile_fails o.control e h t).mono fun ctl t1 ⟨hneg, hsame, herrno⟩ => ?_
  rw [if_pos hneg]
  refine (negErrno_wp t1).mono fun r t' ⟨hr, ht⟩ => ?_
  rw [hr, ht, herrno]
  exact ⟨hsame, rfl⟩

/-- Where the subdevice is preferred, the device is not opened, and `errno` is what it was before. -/
theorem open_subdev_preferred (hcontrol : o.control.fails = none) (hprefer : o.prefer = none) :
    Wp (_snd_open_subdev o) t fun r t' => Same t t' ∧ r = -(t.errno : Int) := by
  apply wp_bind
  refine (openFile_works o.control hcontrol t).mono fun ctl t1 ⟨hpos, hctl, herrno⟩ => ?_
  rw [if_neg (Int.not_lt.mpr hpos), hprefer]
  apply wp_bind
  refine ⟨0, t1, rfl, ?_⟩
  dsimp only
  rw [if_pos (Int.le_refl 0)]
  apply wp_bind
  apply wp_pure
  apply wp_bind
  refine (closeFile_wp ctl.toNat t1 hctl.mem).mono fun _ t2 ⟨hclosed, herrno'⟩ => ?_
  rw [if_pos (by decide)]
  refine (negErrno_wp t2).mono fun r t' ⟨hr, ht⟩ => ?_
  rw [hr, ht, herrno', herrno]
  exact ⟨hctl.closed hclosed, rfl⟩

/-- Where it is not, the device is opened nevertheless. -/
theorem open_subdev_refused (hcontrol : o.control.fails = none) (hprefer : o.prefer ≠ none) :
    Wp (_snd_open_subdev o) t fun r t' =>
      (∀ e, o.device.fails = some e → Same t t' ∧ r = -(e : Int)) ∧
        (o.device.fails = none → 0 ≤ r ∧ Opened r.toNat t t') := by
  apply wp_bind
  refine (openFile_works o.control hcontrol t).mono fun ctl t1 ⟨hpos, hctl, _⟩ => ?_
  rw [if_neg (Int.not_lt.mpr hpos)]
  apply wp_bind
  refine (call_wp o.prefer t1).mono fun r t2 ⟨hsame, hr⟩ => ?_
  have hctl := hctl.same hsame
  have hneg : r < 0 := by
    rcases hr with ⟨hneg, -⟩ | ⟨-, hnone, -⟩
    · exact hneg
    · exact absurd hnone hprefer
  rw [if_neg (Int.not_le.mpr hneg)]
  apply wp_bind
  cases hdevice : o.device.fails with
  | some e =>
    refine (openFile_fails o.device e hdevice t2).mono fun fd t3 ⟨hfd, hsame, herrno⟩ => ?_
    have hctl := hctl.same hsame
    apply wp_bind
    refine (closeFile_wp ctl.toNat t3 hctl.mem).mono fun _ t4 ⟨hclosed, herrno'⟩ => ?_
    rw [if_pos hfd]
    refine (negErrno_wp t4).mono fun r t' ⟨hr, ht⟩ =>
      ⟨fun e' he' => ?_, fun hnone => absurd hnone (Option.some_ne_none e)⟩
    obtain rfl := Option.some.inj he'
    rw [hr, ht, herrno', herrno]
    exact ⟨hctl.closed hclosed, rfl⟩
  | none =>
    refine (openFile_works o.device hdevice t2).mono fun fd t3 ⟨hfd, hopened, _⟩ => ?_
    have hmem : ctl.toNat ∈ t3.fds := hopened.fds.symm ▸ Finset.mem_insert_of_mem hctl.mem
    apply wp_bind
    refine (closeFile_wp ctl.toNat t3 hmem).mono fun _ t4 ⟨hclosed, _⟩ => ?_
    rw [if_neg (Int.not_lt.mpr hfd)]
    exact wp_pure fd t4 _
      ⟨fun e he => absurd he.symm (Option.some_ne_none e), fun _ => ⟨hfd, hctl.over hopened hclosed⟩⟩

end Subdev

/-! ## When it serves -/

/-- The result is the errno of a step to blame: a step that fails, or what `errno` was where the device is not
opened. -/
def Coincides (blame : SubdevAnswers → Errno → Prop) (o : SubdevAnswers) (t : Table) : Prop :=
  o.control.fails ≠ none ∨
    ∃ e, o.device.fails = some e ∧ ((o.prefer ≠ none ∧ blame o e) ∨ (o.prefer = none ∧ t.errno = e))

theorem not_grants (o : SubdevAnswers) (t : Table) (blame : SubdevAnswers → Errno → Prop) (h : Coincides blame o t) :
    ¬ Grants o := by
  rintro ⟨hcontrol, -, hdevice⟩
  rcases h with hfails | ⟨e, he, -⟩
  · exact hfails hcontrol
  · rw [hdevice] at he
    cases he

/-- It is a step that fails, and the first or the only one may be blamed. -/
structure Blames (blame : SubdevAnswers → Errno → Prop) : Prop where
  failed : ∀ o e, blame o e → Failed o e
  control : ∀ (o : SubdevAnswers) e, o.control.fails = some e → blame o e
  device : ∀ (o : SubdevAnswers) e, o.control.fails = none → o.prefer = none → o.device.fails = some e → blame o e

theorem blames_failed : Blames Failed :=
  ⟨fun _ _ h => h, fun _ _ h => .inl h, fun _ _ _ _ h => .inr (.inr h)⟩

theorem blames_failedFirst : Blames FailedFirst := by
  refine ⟨?_, fun _ _ h => .inl h, fun _ _ hcontrol hprefer h => .inr ⟨hcontrol, .inr ⟨hprefer, h⟩⟩⟩
  rintro o e (h | ⟨-, h | ⟨-, h⟩⟩)
  · exact .inl h
  · exact .inr (.inl h)
  · exact .inr (.inr h)

section Serves

variable {blame : SubdevAnswers → Errno → Prop} (hblame : Blames blame) (o : SubdevAnswers) (t : Table)

include hblame

theorem serves_of_coincides (h : Coincides blame o t) : Serves blame o t := by
  have hgrants := not_grants o t blame h
  refine ⟨fun hall => absurd hall hgrants, fun _ => ?_, fun hall => absurd hall hgrants,
    fun hall => absurd hall hgrants⟩
  cases hcontrol : o.control.fails with
  | some e =>
    refine (open_subdev_control o t e hcontrol).mono fun r t' ⟨hsame, hr⟩ => ?_
    exact ⟨hsame, e, hblame.control o e hcontrol, hr⟩
  | none =>
    obtain ⟨e, hdevice, ⟨hprefer, he⟩ | ⟨hprefer, herrno⟩⟩ := h.resolve_left (not_not_intro hcontrol)
    · refine (open_subdev_refused o t hcontrol hprefer).mono fun r t' ⟨hfails, _⟩ => ?_
      obtain ⟨hsame, hr⟩ := hfails e hdevice
      exact ⟨hsame, e, he, hr⟩
    · refine (open_subdev_preferred o t hcontrol hprefer).mono fun r t' ⟨hsame, hr⟩ => ?_
      exact ⟨hsame, e, hblame.device o e hcontrol hprefer hdevice, herrno ▸ hr⟩

theorem coincides_of_serves (h : Serves blame o t) : Coincides blame o t := by
  by_cases hcontrol : o.control.fails = none
  swap
  · exact .inl hcontrol
  right
  by_cases hprefer : o.prefer = none
  · obtain ⟨r, t', hrun, hsame, hr⟩ := open_subdev_preferred o t hcontrol hprefer
    cases hdevice : o.device.fails with
    | none =>
      obtain ⟨-, hopened, -⟩ := (h.granted ⟨hcontrol, hprefer, hdevice⟩).unique hrun
      exact absurd hopened (not_opened_of_same hsame)
    | some e =>
      have hnot : ¬ Grants o := fun hall => Option.some_ne_none e (hdevice.symm.trans hall.2.2)
      obtain ⟨-, e', he', hr'⟩ := (h.refused hnot).unique hrun
      have hsome : o.device.fails = some e' := by
        rcases hblame.failed o e' he' with hfails | hfails | hfails
        · rw [hcontrol] at hfails
          cases hfails
        · rw [hprefer] at hfails
          cases hfails
        · exact hfails
      rw [hdevice] at hsome
      obtain rfl := Option.some.inj hsome
      exact ⟨e, rfl, .inr ⟨hprefer, by omega⟩⟩
  · obtain ⟨r, t', hrun, hfails, hworks⟩ := open_subdev_refused o t hcontrol hprefer
    obtain ⟨-, e', he', hr'⟩ := (h.refused fun hall => hprefer hall.2.1).unique hrun
    have hpos := e'.property
    cases hdevice : o.device.fails with
    | none =>
      obtain ⟨hnonneg, -⟩ := hworks hdevice
      omega
    | some e =>
      obtain ⟨-, hr⟩ := hfails e hdevice
      have heq : e = e' := Subtype.ext (by omega)
      exact ⟨e, rfl, .inl ⟨hprefer, heq ▸ he'⟩⟩

end Serves

/-- An explicit subdevice is not opened where it is granted; and a failure is told right where the control cannot be
opened, or the device cannot. -/
theorem subdevice_served_iff (o : SubdevAnswers) (t : Table) :
    (Serves Failed o t ↔ o.control.fails ≠ none ∨ ∃ e, o.device.fails = some e ∧ (o.prefer = none → t.errno = e)) ∧
      (Serves FailedFirst o t ↔ o.control.fails ≠ none ∨
        ∃ e, o.device.fails = some e ∧ (o.prefer = some e ∨ (o.prefer = none ∧ t.errno = e))) := by
  have hiff (blame : SubdevAnswers → Errno → Prop) (hblame : Blames blame) : Serves blame o t ↔ Coincides blame o t :=
    ⟨coincides_of_serves hblame o t, serves_of_coincides hblame o t⟩
  rw [hiff Failed blames_failed, hiff FailedFirst blames_failedFirst]
  unfold Coincides
  by_cases hcontrol : o.control.fails = none
  · simp only [hcontrol, ne_eq, not_true_eq_false, false_or]
    constructor
    · refine exists_congr fun e => and_congr_right fun hdevice => ?_
      constructor
      · rintro (⟨hprefer, -⟩ | ⟨-, herrno⟩) hnone
        · exact absurd hnone hprefer
        · exact herrno
      · intro h
        by_cases hprefer : o.prefer = none
        · exact .inr ⟨hprefer, h hprefer⟩
        · exact .inl ⟨hprefer, .inr (.inr hdevice)⟩
    · refine exists_congr fun e => and_congr_right fun _ => or_congr_left ?_
      constructor
      · rintro ⟨hprefer, h | ⟨-, h | ⟨hnone, -⟩⟩⟩
        · rw [hcontrol] at h
          cases h
        · exact h
        · exact absurd hnone hprefer
      · intro h
        exact ⟨fun hnone => Option.some_ne_none e (h.symm.trans hnone), .inr ⟨hcontrol, .inl h⟩⟩
  · exact ⟨iff_of_true (.inl hcontrol) (.inl hcontrol), iff_of_true (.inl hcontrol) (.inl hcontrol)⟩

/-- With all steps granted, the errno of a call before them is returned. -/
theorem granted_subdevice_fails :
    Grants ⟨open_above none, none, open_above none⟩ ∧
      Wp (_snd_open_subdev ⟨open_above none, none, open_above none⟩) (no_files.fail 2) (fun r _ => r = -2) ∧
      ¬ Serves Failed ⟨open_above none, none, open_above none⟩ (no_files.fail 2) ∧
      ¬ Serves FailedFirst ⟨open_above none, none, open_above none⟩ (no_files.fail 2) := by
  have hgrants : Grants ⟨open_above none, none, open_above none⟩ := ⟨rfl, rfl, rfl⟩
  have hrun := open_subdev_preferred ⟨open_above none, none, open_above none⟩ (no_files.fail 2) rfl rfl
  refine ⟨hgrants, hrun.mono fun r t' h => h.2, fun h => ?_, fun h => ?_⟩
  · exact not_grants _ _ Failed (coincides_of_serves blames_failed _ _ h) hgrants
  · exact not_grants _ _ FailedFirst (coincides_of_serves blames_failedFirst _ _ h) hgrants

end Salsa.Device
