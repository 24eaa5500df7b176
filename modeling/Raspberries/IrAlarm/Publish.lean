import Mathlib.Data.List.Induction
import Raspberries.IrAlarm.IrAlarmCtl
import Raspberries.IrAlarm.MainLoop

/-!
# Publishing the configuration, editing it and reloading it

At its start the daemon stores its variables in the shared memory objects
(`SETPTR_SAFE`), `iralarmctl` overwrites some of them (`do_set`), and the SIGHUP handler
loads them all (`GETPTR_SAFE`).  Both macros access an object through a pointer to
`unsigned char` or to `uint32_t`.

`round_trip_iff` says when a variable then has the value last written to its object, or
its own where nothing was written: always, but for `s_xmpp`, which is an `int8_t` and
turns a value from `128` on into a negative number (`xmpp_turns_negative`).
-/

namespace Raspberries.IrAlarm

open Bytes

/-- The widths behind the pointers `ucptr` (and `s_astate`) and `szptr`. -/
def ucptr : Nat := 1
def szptr : Nat := 4

def AlrmState.toNat : AlrmState → Nat
  | .none => 0
  | .preactive => 1
  | .active => 2

/-- `SETPTR_SAFE(id, val, tmp)` with a pointer of this width. -/
structure SetptrSafe where
  id : Nat
  val : Int
  width : Nat
  deriving DecidableEq, Repr

def setptrSafe (seg : Memory) (m : SetptrSafe) : Memory :=
  match irmemGetptr irsmData m.id with
  | some ptr => writeLE seg ptr m.width (m.val % (256 ^ m.width : Nat)).toNat
  | none => seg

/-- The block in `main`, in a build with `DO_XMPP`. -/
def setptrBlock (c : Settings) (astate : AlrmState) : List SetptrSafe :=
  [⟨shmActive, c.sAactive, ucptr⟩,
    ⟨shmMloop, c.sMainloop, szptr⟩,
    ⟨shmSpkr, c.sSpeaker, ucptr⟩,
    ⟨shmXmpp, c.sXmpp, ucptr⟩,
    ⟨shmVideo, c.sVideo, ucptr⟩,
    ⟨shmStledon, c.sStatusledOn, szptr⟩,
    ⟨shmStledoff, c.sStatusledOff, szptr⟩,
    ⟨shmMinrecvd, c.irMinrecvd, szptr⟩,
    ⟨shmMinalrms, c.irMinalarm, szptr⟩,
    ⟨shmRstalrms, c.irRstalarm, szptr⟩,
    ⟨shmAlarm, astate.toNat, ucptr⟩]

def publish (c : Settings) (astate : AlrmState) (seg : Memory) : Memory :=
  (setptrBlock c astate).foldl setptrSafe seg

/-- `GETPTR_SAFE(id, dst, tmp)` with a pointer of this width; `assign` stores to `dst`. -/
def getptrSafe (seg : Memory) (id width : Nat) (assign : Nat → Settings) (c : Settings) :
    Settings :=
  match irmemGetptr irsmData id with
  | some ptr => assign (readLE seg ptr width)
  | none => c

/-- The block in `sighandler`. -/
def reload (doXmpp : Bool) (seg : Memory) (c : Settings) : Settings :=
  let c := getptrSafe seg shmActive ucptr (fun v => { c with sAactive := v }) c
  let c := getptrSafe seg shmMloop szptr (fun v => { c with sMainloop := v }) c
  let c := getptrSafe seg shmSpkr ucptr (fun v => { c with sSpeaker := v }) c
  let c :=
    if doXmpp then getptrSafe seg shmXmpp ucptr (fun v => { c with sXmpp := toInt8 v }) c
    else c
  let c := getptrSafe seg shmVideo ucptr (fun v => { c with sVideo := v }) c
  let c := getptrSafe seg shmStledon szptr (fun v => { c with sStatusledOn := v }) c
  let c := getptrSafe seg shmStledoff szptr (fun v => { c with sStatusledOff := v }) c
  let c := getptrSafe seg shmMinrecvd szptr (fun v => { c with irMinrecvd := v }) c
  let c := getptrSafe seg shmMinalrms szptr (fun v => { c with irMinalarm := v }) c
  getptrSafe seg shmRstalrms szptr (fun v => { c with irRstalarm := v }) c

structure Edit where
  id : Nat
  value : Nat
  fits : ∃ type, irmemType irsmData id = some type ∧ value < 256 ^ type.size

def Edit.apply (e : Edit) (seg : Memory) : Memory :=
  match irmemGetptr irsmData e.id with
  | some ptr => (doSet irsmData e.id ptr e.value seg).1
  | none => seg

def lastWrite (es : List Edit) (id : Nat) : Option Nat :=
  (es.reverse.find? fun e => e.id = id).map Edit.value

/-- The variables of the daemon's start have the ranges of their types. -/
structure InRange (c : Settings) : Prop where
  sMainloop : c.sMainloop < 2 ^ 32
  sAactive : c.sAactive < 2 ^ 8
  sSpeaker : c.sSpeaker < 2 ^ 8
  sXmpp : -2 ^ 7 ≤ c.sXmpp ∧ c.sXmpp < 2 ^ 7
  sVideo : c.sVideo < 2 ^ 8
  sStatusledOn : c.sStatusledOn < 2 ^ 32
  sStatusledOff : c.sStatusledOff < 2 ^ 32
  irMinrecvd : c.irMinrecvd < 2 ^ 32
  irMinalarm : c.irMinalarm < 2 ^ 32
  irRstalarm : c.irRstalarm < 2 ^ 32

/-- The daemon's variables after its start, the edits and a SIGHUP. -/
def afterReload (c : Settings) (astate : AlrmState) (es : List Edit) (seg : Memory) : Settings :=
  reload true (es.foldl (fun seg e => e.apply seg) (publish c astate seg)) c

/-- Every variable has the value last written to its object, or its start value. -/
def RoundTrip (c : Settings) (astate : AlrmState) (es : List Edit) (seg : Memory) : Prop :=
  ∀ id < shmAlarm, (afterReload c astate es seg).get id =
    match lastWrite es id with
    | some v => some (v : Int)
    | none => c.get id

/-! ### The contents of the objects -/

theorem content_setptrSafe {seg : Memory} {m : SetptrSafe} {type : ShmObject}
    (h : irmemType irsmData m.id = some type) (hwidth : type.size = m.width) (id : Nat) :
    content (setptrSafe seg m) id =
      if id = m.id then (m.val % (256 ^ m.width : Nat)).toNat else content seg id := by
  have hpos : (0 : Int) < (256 ^ m.width : Nat) := Int.natCast_pos.mpr (Nat.pow_pos (by decide))
  have hlt : (m.val % (256 ^ m.width : Nat)).toNat < 256 ^ m.width :=
    (Int.toNat_lt (Int.emod_nonneg _ (Int.ne_of_gt hpos))).mpr (Int.emod_lt_of_pos _ hpos)
  have hset : setptrSafe seg m =
      writeLE seg (4 * pOff irsmData m.id) m.width (m.val % (256 ^ m.width : Nat)).toNat := by
    rw [setptrSafe, irmemGetptr_of_type h]
  rw [hset]
  split
  next hid =>
    subst hid
    rw [← hwidth] at hlt ⊢
    exact (content_writeLE_self h _).trans (Nat.mod_eq_of_lt hlt)
  next hid =>
    rw [← hwidth]
    exact content_writeLE_of_ne h hid _

/-- Every use of the macro names an object of the width of its pointer. -/
def Fitting (ms : List SetptrSafe) : Prop :=
  ∀ m ∈ ms, ∃ type, irmemType irsmData m.id = some type ∧ type.size = m.width

theorem content_foldl_setptrSafe {ms : List SetptrSafe} (hms : Fitting ms)
    (hdiff : ms.Pairwise fun m m' => m.id ≠ m'.id) (seg : Memory) :
    (∀ m ∈ ms, content (ms.foldl setptrSafe seg) m.id = (m.val % (256 ^ m.width : Nat)).toNat) ∧
    ∀ id, (∀ m ∈ ms, id ≠ m.id) → content (ms.foldl setptrSafe seg) id = content seg id := by
  induction ms generalizing seg with
  | nil => exact ⟨(by simp), fun _ _ => rfl⟩
  | cons m ms ih =>
    obtain ⟨type, htype, hwidth⟩ := hms m List.mem_cons_self
    obtain ⟨hne, hdiff⟩ := List.pairwise_cons.mp hdiff
    have hms' : Fitting ms := fun m' hm' => hms m' (List.mem_cons_of_mem m hm')
    obtain ⟨hself, hother⟩ := ih hms' hdiff (setptrSafe seg m)
    rw [List.foldl_cons]
    refine ⟨?_, ?_⟩
    · intro m' hm'
      rcases List.mem_cons.mp hm' with rfl | hm'
      · rw [hother _ hne, content_setptrSafe htype hwidth, if_pos rfl]
      · exact hself m' hm'
    · intro id hid
      rw [hother id fun m' hm' => hid m' (List.mem_cons_of_mem m hm'),
        content_setptrSafe htype hwidth, if_neg (hid m List.mem_cons_self)]

theorem content_publish (c : Settings) (astate : AlrmState) (seg : Memory) {m : SetptrSafe}
    (hm : m ∈ setptrBlock c astate) :
    content (publish c astate seg) m.id = (m.val % (256 ^ m.width : Nat)).toNat := by
  refine (content_foldl_setptrSafe ?_ ?_ seg).1 m hm
  · intro m' hm'
    simp only [setptrBlock, List.mem_cons, List.not_mem_nil, or_false] at hm'
    rcases hm' with rfl | rfl | rfl | rfl | rfl | rfl | rfl | rfl | rfl | rfl | rfl
    all_goals exact ⟨_, rfl, rfl⟩
  · simp [setptrBlock, shmActive, shmMloop, shmSpkr, shmXmpp, shmVideo, shmStledon, shmStledoff,
      shmMinrecvd, shmMinalrms, shmRstalrms, shmAlarm]

theorem content_edit (seg : Memory) (e : Edit) (id : Nat) :
    content (e.apply seg) id = if id = e.id then e.value else content seg id := by
  obtain ⟨type, htype, hlt⟩ := e.fits
  have happly : e.apply seg = writeLE seg (4 * pOff irsmData e.id) type.size e.value := by
    rw [Edit.apply, irmemGetptr_of_type htype]
    simp only [doSet, htype]
  rw [happly]
  split
  next hid =>
    subst hid
    exact (content_writeLE_self htype _).trans (Nat.mod_eq_of_lt hlt)
  next hid => exact content_writeLE_of_ne htype hid _

/-! ### The round trip -/

/-- What the reload assigns. -/
theorem get_reload {doXmpp : Bool} {id : Nat} (h : id ∈ reloadedIds doXmpp) (seg : Memory)
    (c : Settings) : (reload doXmpp seg c).get id = some (loaded id (content seg id)) := by
  have hlt : id < shmAlarm := lt_of_mem_reloadedIds h
  unfold shmAlarm at hlt
  cases doXmpp with
  | true => interval_cases id <;> rfl
  | false =>
    have hne : id ≠ shmXmpp := by
      rintro rfl
      exact absurd h (by decide)
    unfold shmXmpp at hne
    interval_cases id <;> first | rfl | exact absurd rfl hne

theorem get_reload_of_notMem {doXmpp : Bool} {id : Nat} (hlt : id < shmAlarm)
    (h : id ∉ reloadedIds doXmpp) (seg : Memory) (c : Settings) :
    (reload doXmpp seg c).get id = c.get id := by
  obtain ⟨rfl, rfl⟩ : doXmpp = false ∧ id = shmXmpp := by
    revert id
    cases doXmpp <;> decide
  rfl

theorem content_edits (seg : Memory) (es : List Edit) (id : Nat) :
    content (es.foldl (fun seg e => e.apply seg) seg) id =
      (lastWrite es id).getD (content seg id) := by
  induction es using List.reverseRecOn with
  | nil => rfl
  | append_singleton es e ih =>
    rw [List.foldl_append, List.foldl_cons, List.foldl_nil, content_edit, lastWrite,
      List.reverse_append, List.reverse_singleton, List.singleton_append, List.find?_cons]
    by_cases hid : id = e.id
    · rw [if_pos hid]
      simp [hid]
    · rw [if_neg hid, ih, lastWrite]
      simp [Ne.symm hid]

theorem loaded_unsigned {id v w : Nat} (hid : id ≠ shmXmpp) (h : v < 256 ^ w) :
    loaded id ((v : Int) % (256 ^ w : Nat)).toNat = v := by
  rw [loaded, if_neg hid, ← Int.natCast_emod, Int.toNat_natCast, Nat.mod_eq_of_lt h]

/-- `s_xmpp` does too: the byte of a negative number is read as that number. -/
theorem loaded_int8 {v : Int} (h : -2 ^ 7 ≤ v ∧ v < 2 ^ 7) :
    loaded shmXmpp (v % (256 ^ ucptr : Nat)).toNat = v := by
  have hbyte : (v % (256 ^ ucptr : Nat)).toNat % 2 ^ 8 = v % 256 := by
    rw [show (256 ^ ucptr : Nat) = 256 by rfl]
    omega
  rw [loaded, if_pos rfl, toInt8, BitVec.toInt_ofNat', Int.bmod]
  split <;> omega

theorem toInt8_eq_iff {v : Nat} (h : v < 256) : toInt8 v = v ↔ v < 128 := by
  rw [toInt8, BitVec.toInt_ofNat', Int.bmod]
  split <;> omega

theorem mem_setptrBlock {c : Settings} (hc : InRange c) (astate : AlrmState) {id : Nat}
    (h : id < shmAlarm) : ∃ m ∈ setptrBlock c astate, m.id = id ∧ c.get id = some m.val ∧
      loaded id (m.val % (256 ^ m.width : Nat)).toNat = m.val := by
  have hmem : ∀ n : Fin 11, (setptrBlock c astate).get n ∈ setptrBlock c astate :=
    fun n => List.get_mem (setptrBlock c astate) n
  unfold shmAlarm at h
  interval_cases id
  · exact ⟨_, hmem 1, rfl, rfl, loaded_unsigned (by decide) hc.sMainloop⟩
  · exact ⟨_, hmem 0, rfl, rfl, loaded_unsigned (by decide) hc.sAactive⟩
  · exact ⟨_, hmem 2, rfl, rfl, loaded_unsigned (by decide) hc.sSpeaker⟩
  · exact ⟨_, hmem 3, rfl, rfl, loaded_int8 hc.sXmpp⟩
  · exact ⟨_, hmem 4, rfl, rfl, loaded_unsigned (by decide) hc.sVideo⟩
  · exact ⟨_, hmem 5, rfl, rfl, loaded_unsigned (by decide) hc.sStatusledOn⟩
  · exact ⟨_, hmem 6, rfl, rfl, loaded_unsigned (by decide) hc.sStatusledOff⟩
  · exact ⟨_, hmem 7, rfl, rfl, loaded_unsigned (by decide) hc.irMinrecvd⟩
  · exact ⟨_, hmem 8, rfl, rfl, loaded_unsigned (by decide) hc.irMinalarm⟩
  · exact ⟨_, hmem 9, rfl, rfl, loaded_unsigned (by decide) hc.irRstalarm⟩

theorem lastWrite_fits {es : List Edit} {id v : Nat} (h : lastWrite es id = some v) :
    ∃ type, irmemType irsmData id = some type ∧ v < 256 ^ type.size := by
  obtain ⟨e, he, rfl⟩ := Option.map_eq_some_iff.mp h
  have hfound := List.find?_some he
  have hid : e.id = id := of_decide_eq_true hfound
  rw [← hid]
  exact e.fits

theorem get_afterReload {c : Settings} (hc : InRange c) (astate : AlrmState) (es : List Edit)
    (seg : Memory) {id : Nat} (h : id < shmAlarm) :
    (afterReload c astate es seg).get id =
      match lastWrite es id with
      | some v => some (loaded id v)
      | none => c.get id := by
  have hmem : id ∈ reloadedIds true := by
    revert id
    decide
  rw [afterReload, get_reload hmem, content_edits]
  cases lastWrite es id with
  | some v => rfl
  | none =>
    obtain ⟨m, hm, rfl, hget, hkept⟩ := mem_setptrBlock hc astate h
    dsimp only [Option.getD_none]
    rw [content_publish c astate seg hm, hkept, hget]

/-- **When the values come back.**  Every variable has the value last written to its
object, or its start value, exactly if the last value written for `s_xmpp`, if any, is
below `128`; without a write the reload changes nothing. -/
theorem round_trip_iff {c : Settings} (hc : InRange c) (astate : AlrmState) (es : List Edit)
    (seg : Memory) :
    (RoundTrip c astate es seg ↔ ∀ v, lastWrite es shmXmpp = some v → v < 128) ∧
    afterReload c astate [] seg = c := by
  refine ⟨⟨?_, ?_⟩, ?_⟩
  · intro h v hv
    have hget := get_afterReload hc astate es seg (show shmXmpp < shmAlarm by decide)
    rw [h shmXmpp (by decide), hv] at hget
    obtain ⟨type, htype, hlt⟩ := lastWrite_fits hv
    obtain rfl := Option.some.inj htype
    exact (toInt8_eq_iff hlt).mp (Option.some.inj hget).symm
  · intro h id hid
    rw [get_afterReload hc astate es seg hid]
    cases hv : lastWrite es id with
    | none => rfl
    | some v =>
      have hsame : loaded id v = v := by
        rw [loaded]
        split
        next hx =>
          subst hx
          have hlt := h v hv
          exact (toInt8_eq_iff (by omega)).mpr hlt
        next => rfl
      exact congrArg some hsame
  · apply Settings.ext_get
    intro id hid
    exact get_afterReload hc astate [] seg hid

theorem inRange_initial : InRange (.initial true) where
  sMainloop := by decide
  sAactive := by decide
  sSpeaker := by decide
  sXmpp := by decide
  sVideo := by decide
  sStatusledOn := by decide
  sStatusledOff := by decide
  irMinrecvd := by decide
  irMinalarm := by decide
  irRstalarm := by decide

def threeEdits : List Edit :=
  [⟨shmXmpp, 255, .byte, rfl, by decide⟩, ⟨shmMinalrms, 5, .int32, rfl, by decide⟩,
    ⟨shmXmpp, 0, .byte, rfl, by decide⟩]

theorem round_trip_three :
    RoundTrip (.initial true) .none threeEdits (fun _ => 0) ∧
    afterReload (.initial true) .none [] (fun _ => 0) = .initial true := by
  obtain ⟨hiff, hsame⟩ := round_trip_iff inRange_initial .none threeEdits fun _ => 0
  refine ⟨hiff.mpr ?_, hsame⟩
  intro v hv
  obtain rfl : 0 = v := Option.some.inj hv
  decide

/-- `200` written for `s_xmpp` comes back as `-56`. -/
theorem xmpp_turns_negative :
    ¬ ∀ (c : Settings) (astate : AlrmState) (es : List Edit) (seg : Memory), InRange c →
      RoundTrip c astate es seg := by
  intro h
  have htrip := h (.initial true) .none [⟨shmXmpp, 200, .byte, rfl, by decide⟩] (fun _ => 0)
    inRange_initial shmXmpp (by decide)
  exact absurd htrip (by decide)

end Raspberries.IrAlarm
