import Mathlib.Data.List.Basic
import Mathlib.Tactic.Common

/-!
# The packet handlers of the sniffer

`p2f_callbacks` offers a packet to the handlers of a table, one after the other, and
raises the blink counter of the first entry whose handler takes it.  A handler returns
an `int`, and reads what it looks at from the memory at `packetptr`.

Of an entry there are the filter, the handler and the blink counter: the descriptor is
never used, and the file name is only printed.
-/

namespace Raspberries.NetLed

/-- The memory from `packetptr` on; `none` for a byte that cannot be read. -/
abbrev Mem := Nat → Option (BitVec 8)

structure PcapPkthdr where
  caplen : Nat

/-! ### Headers -/

def sizeofEtherHeader : Nat := 14

def linkhdrlen : Nat := sizeofEtherHeader

def ethertypeIp : Nat := 0x0800
def ethertypeArp : Nat := 0x0806
def ethertypeIpv6 : Nat := 0x86DD

def ipprotoIcmp : Nat := 1
def ipprotoUdp : Nat := 17

def ntohsAt (packetptr : Mem) (off : Nat) : Option Nat := do
  let hi ← packetptr off
  let lo ← packetptr (off + 1)
  return 256 * hi.toNat + lo.toNat

def etherTypeAt (packetptr : Mem) : Option Nat := ntohsAt packetptr 12

/-- The four bytes that `inet_ntoa` prints. -/
def inAddrAt (packetptr : Mem) (off : Nat) : Option (List (BitVec 8)) :=
  [0, 1, 2, 3].mapM fun i => packetptr (off + i)

/-! ### Handlers -/

/-- `p2f_icmp` and `p2f_udp`, which differ in the protocol they look for.  Both read the
header that follows the link header as an IPv4 one, without asking for the type of the
frame or for its length; the two addresses and `ip_hl` are read and not used. -/
def p2fProto (proto : Nat) (_ : PcapPkthdr) (packetptr : Mem) : Option Int := do
  let _ ← inAddrAt packetptr (linkhdrlen + 12)
  let _ ← inAddrAt packetptr (linkhdrlen + 16)
  let _ ← packetptr linkhdrlen
  let ipP ← packetptr (linkhdrlen + 9)
  return if ipP.toNat = proto then 1 else 0

def p2fIcmp : PcapPkthdr → Mem → Option Int := p2fProto ipprotoIcmp

def p2fUdp : PcapPkthdr → Mem → Option Int := p2fProto ipprotoUdp

def p2fArp (packethdr : PcapPkthdr) (packetptr : Mem) : Option Int :=
  if sizeofEtherHeader ≤ packethdr.caplen then do
    let etherType ← etherTypeAt packetptr
    return if etherType = ethertypeArp then 1 else 0
  else some 0

def p2fNonip (packethdr : PcapPkthdr) (packetptr : Mem) : Option Int :=
  if sizeofEtherHeader ≤ packethdr.caplen then do
    let etherType ← etherTypeAt packetptr
    return if etherType = ethertypeArp ∨ etherType = ethertypeIp ∨ etherType = ethertypeIpv6
      then 0 else 1
  else some 0

/-! ### The table -/

structure PcapToFile where
  bpfStr : List Char
  cb : PcapPkthdr → Mem → Option Int
  blinkCount : Nat

def p2f : List PcapToFile :=
  [⟨"icmp".toList, p2fIcmp, 0⟩,
    ⟨"udp".toList, p2fUdp, 0⟩,
    ⟨"arp".toList, p2fArp, 0⟩,
    ⟨"(!ip)".toList, p2fNonip, 0⟩]

/-- What is done for a packet under the mutex of its entry. -/
def PcapToFile.charge (e : PcapToFile) : PcapToFile :=
  if e.blinkCount < 4 then { e with blinkCount := e.blinkCount + 2 } else e

/-- The loop over the table: the returned `int` and the table behind it. -/
def p2fCallbacks (packethdr : PcapPkthdr) (packetptr : Mem) :
    List PcapToFile → Option (Int × List PcapToFile)
  | [] => some (0, [])
  | e :: es =>
      match e.cb packethdr packetptr with
      | none => none
      | some taken =>
          if taken ≠ 0 then some (1, e.charge :: es)
          else (p2fCallbacks packethdr packetptr es).map fun r => (r.1, e :: r.2)

theorem charge_of_lt {e : PcapToFile} (h : e.blinkCount < 4) :
    e.charge.blinkCount = e.blinkCount + 2 := by
  rw [PcapToFile.charge, if_pos h]

def withCounts (count : Nat → Nat) (t : List PcapToFile) : List PcapToFile :=
  t.mapIdx fun i e => { e with blinkCount := count i }

/-! ### The loop -/

/-- What the loop comes to when `first` is the first entry that takes the packet. -/
def charged (t : List PcapToFile) (first : Option Nat) : Int × List PcapToFile :=
  match first with
  | none => (0, t)
  | some i => (1, t.modify i PcapToFile.charge)

section Loop

variable {packethdr : PcapPkthdr} {packetptr : Mem} {verdict : PcapToFile → Int}

/-- **The loop charges one entry.**  Where every handler comes to a verdict, the first entry
whose verdict is not zero is charged, and no other. -/
theorem p2fCallbacks_eq {t : List PcapToFile}
    (hverdict : ∀ e ∈ t, e.cb packethdr packetptr = some (verdict e)) :
    p2fCallbacks packethdr packetptr t =
      some (charged t (t.findIdx? fun e => decide (verdict e ≠ 0))) := by
  induction t with
  | nil => rfl
  | cons e es ih =>
    rw [p2fCallbacks, hverdict e List.mem_cons_self, List.findIdx?_cons]
    by_cases htaken : verdict e ≠ 0
    · simp [htaken, charged]
    · have hrest := ih fun e' he' => hverdict e' (List.mem_cons_of_mem e he')
      rw [hrest]
      simp only [htaken, decide_false, if_false, Bool.false_eq_true]
      cases es.findIdx? fun e => decide (verdict e ≠ 0) with
      | none => rfl
      | some i => rfl

/-- From the table it leaves behind one can tell which entry was charged, as long as its
counter was below 4. -/
theorem modify_charge_inj {t : List PcapToFile} {i j : Nat} {e : PcapToFile}
    (he : t[i]? = some e) (hcount : e.blinkCount < 4)
    (h : t.modify i PcapToFile.charge = t.modify j PcapToFile.charge) : i = j := by
  by_contra hne
  have hi : (t.modify i PcapToFile.charge)[i]? = some e.charge := by
    rw [List.getElem?_modify_eq, he]
    rfl
  have hj : (t.modify j PcapToFile.charge)[i]? = some e := by
    rw [List.getElem?_modify_ne _ t (Ne.symm hne), he]
  have hsame : e.charge = e := by
    rw [h, hj] at hi
    exact (Option.some.inj hi).symm
  have hraised := charge_of_lt hcount
  rw [hsame] at hraised
  omega

end Loop

end Raspberries.NetLed
