import Raspberries.IrAlarm.Publish
import Raspberries.Lib.Report

/-!
# What CONFIG and STATUS answer

`irxmpp_thrd_callback` writes the daemon's variables into a text and sends it.  It holds both
mutexes while it reads the configuration, so between two reloads it answers with what the
last one has loaded.

`config_report_shows` says what stands at the label of a variable after a reload: the number
in its object, but for `s_xmpp`, which `%u` shows as a number near `2 ^ 32` if the byte is
`128` or more.  `config_report_eq_iff` says that nothing is lost by that: two reports are one
text only if the objects agree.
-/

namespace Raspberries.IrAlarm

open Report Bytes

/-- An `int` where `%u` wants an `unsigned int`. -/
def uint (v : Int) : Nat := (v % 2 ^ 32).toNat

def configFields (c : Settings) : List Field :=
  [("active........: ".toList, c.sAactive),
    ("mainloop......: ".toList, c.sMainloop),
    ("speaker.......: ".toList, c.sSpeaker),
    ("xmpp..........: ".toList, uint c.sXmpp),
    ("video.........: ".toList, c.sVideo),
    ("statusled-on..: ".toList, c.sStatusledOn),
    ("statusled-off.: ".toList, c.sStatusledOff),
    ("min-recvd.....: ".toList, c.irMinrecvd),
    ("min-alarms....: ".toList, c.irMinalarm),
    ("rst-alarms....: ".toList, c.irRstalarm)]

def configReport (c : Settings) : List Char :=
  '\n' :: "[CONFIG]".toList ++ '\n' :: render (configFields c)

def configLabel : Nat → List Char
  | 0 => "mainloop......: ".toList
  | 1 => "active........: ".toList
  | 2 => "speaker.......: ".toList
  | 3 => "xmpp..........: ".toList
  | 4 => "video.........: ".toList
  | 5 => "statusled-on..: ".toList
  | 6 => "statusled-off.: ".toList
  | 7 => "min-recvd.....: ".toList
  | 8 => "min-alarms....: ".toList
  | 9 => "rst-alarms....: ".toList
  | _ => []

/-! ### Reading it back -/

section Reading

variable {c : Settings} {seg seg' : Memory} {id : Nat}

theorem labelled_configFields (c : Settings) : Labelled 16 (configFields c) where
  length := by
    intro f hf
    have hmem := List.mem_map_of_mem (f := Prod.fst) hf
    revert hmem
    generalize f.1 = label
    revert label
    simp only [configFields, List.map_cons, List.map_nil]
    decide
  newline := by
    intro f hf
    have hmem := List.mem_map_of_mem (f := Prod.fst) hf
    revert hmem
    generalize f.1 = label
    revert label
    simp only [configFields, List.map_cons, List.map_nil]
    decide
  nodup := by
    simp only [configFields, List.map_cons, List.map_nil]
    decide

def shown (id : Nat) (v : Int) : Nat := if id = shmXmpp then uint v else v.toNat

theorem mem_configFields {v : Int} (h : c.get id = some v) (hid : id < shmAlarm) :
    (configLabel id, shown id v) ∈ configFields c := by
  unfold shmAlarm at hid
  interval_cases id <;> cases h
  · exact List.mem_of_getElem? (i := 1) rfl
  · exact List.mem_of_getElem? (i := 0) rfl
  · exact List.mem_of_getElem? (i := 2) rfl
  · exact List.mem_of_getElem? (i := 3) rfl
  · exact List.mem_of_getElem? (i := 4) rfl
  · exact List.mem_of_getElem? (i := 5) rfl
  · exact List.mem_of_getElem? (i := 6) rfl
  · exact List.mem_of_getElem? (i := 7) rfl
  · exact List.mem_of_getElem? (i := 8) rfl
  · exact List.mem_of_getElem? (i := 9) rfl

theorem value_configReport {label : List Char} (h : label.length = 16) (c : Settings) :
    value label (configReport c) = value label (render (configFields c)) := by
  have hshort : ∀ l : List Char, l.length < 16 → ¬ label <+: l := by
    intro l hl hlabel
    have hle := hlabel.length_le
    omega
  have hheading : lines "[CONFIG]".toList = ["[CONFIG]".toList] :=
    List.splitOn_eq_singleton (by decide)
  have hempty := @value_head label [] ?_ ("[CONFIG]".toList ++ '\n' :: render (configFields c))
  · refine hempty.trans (value_head ?_ _)
    rw [hheading]
    intro l hl
    obtain rfl := List.mem_singleton.mp hl
    exact hshort _ (by decide)
  · intro l hl
    rw [lines, List.splitOn_nil] at hl
    obtain rfl := List.mem_singleton.mp hl
    exact hshort _ (by decide)

theorem length_configLabel (h : id < shmAlarm) : (configLabel id).length = 16 := by
  revert id
  decide

theorem value_config {v : Int} (h : c.get id = some v) (hid : id < shmAlarm) :
    value (configLabel id) (configReport c) = some (shown id v) := by
  have hread := value_render (labelled_configFields c) (mem_configFields h hid) []
  rwa [List.append_nil, ← value_configReport (length_configLabel hid)] at hread

theorem uint_toInt8 {v : Nat} (h : v < 256) :
    uint (toInt8 v) = if v < 128 then v else v + (2 ^ 32 - 2 ^ 8) := by
  rw [uint, toInt8, BitVec.toInt_ofNat', Int.bmod]
  split <;> split <;> omega

theorem content_xmpp_lt (seg : Memory) : content seg shmXmpp < 256 := by
  have htype : irmemType irsmData shmXmpp = some .byte := rfl
  have hbyte : ∀ a, readLE seg a 1 = (seg a).toNat := fun a => Nat.add_zero _
  rw [content_of_type htype, ShmObject.size, hbyte]
  exact (seg _).isLt

theorem value_reload (hid : id < shmAlarm) (seg : Memory) (c : Settings) :
    value (configLabel id) (configReport (reload true seg c)) =
      some (if id = shmXmpp ∧ 128 ≤ content seg id then content seg id + (2 ^ 32 - 2 ^ 8)
        else content seg id) := by
  have hmem : id ∈ reloadedIds true := by
    revert id
    decide
  rw [value_config (get_reload hmem seg c) hid, shown, loaded]
  by_cases hx : id = shmXmpp
  · subst hx
    have hlt := content_xmpp_lt seg
    rw [if_pos rfl, if_pos rfl, uint_toInt8 hlt]
    congr 1
    split <;> split <;> omega
  · rw [if_neg hx, if_neg hx, if_neg (fun h => hx h.1), Int.toNat_natCast]

/-- **What CONFIG says about an object.**  After a reload the number at the label of a variable
is the one in its object, except that of `xmpp` if it is `128` or more. -/
theorem config_report_shows (hid : id < shmAlarm) (seg : Memory) (c : Settings) :
    value (configLabel id) (configReport (reload true seg c)) = some (content seg id) ↔
      (id = shmXmpp → content seg id < 128) := by
  rw [value_reload hid, Option.some_inj]
  split <;> omega

/-- A segment of bytes `200`: CONFIG does not show it for `xmpp`. -/
theorem config_report_shows_xmpp :
    value (configLabel shmXmpp) (configReport (reload true (fun _ => 200#8) (.initial true))) ≠
      some (content (fun _ => 200#8) shmXmpp) := by
  intro h
  have hlt := (config_report_shows (by decide) (fun _ => 200#8) (.initial true)).mp h rfl
  exact absurd hlt (by decide)

/-- **Nothing is lost.**  Whatever the variables have been before, two reloads give one report
exactly if all ten objects agree. -/
theorem config_report_eq_iff (seg seg' : Memory) (c c' : Settings) :
    configReport (reload true seg c) = configReport (reload true seg' c') ↔
      ∀ id < shmAlarm, content seg id = content seg' id := by
  refine ⟨?_, ?_⟩
  · intro h id hid
    have hread := value_reload hid seg c
    rw [h, value_reload hid seg' c', Option.some_inj] at hread
    by_cases hx : id = shmXmpp
    · subst hx
      have hlt := content_xmpp_lt seg
      have hlt' := content_xmpp_lt seg'
      split at hread <;> split at hread <;> omega
    · rwa [if_neg (fun h => hx h.1), if_neg (fun h => hx h.1), eq_comm] at hread
  · intro h
    refine congrArg configReport (Settings.ext_get ?_)
    intro id hid
    have hmem : id ∈ reloadedIds true := by
      revert id
      decide
    rw [get_reload hmem, get_reload hmem, h id hid]

end Reading

end Raspberries.IrAlarm
