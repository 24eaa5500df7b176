import Raspberries.Lib.Getopt
import Raspberries.NetLed.BpfStr

/-!
# The start of the sniffer

`main` copies the argument of every `-i` into `interface`, 32 characters with the zero, and
goes on after an option that `getopt` does not know.  Then come the filter string and the
calls of `libpcap`: without a socket the process kills itself, and with one it captures
only from Ethernet.

`netled_captures_iff` says for which command lines and answers of the library the packets of
a device are captured, and with which filter.
-/

namespace Raspberries.NetLed

open CBuffer Getopt

def netledOptstring : List Char := "hi:n:".toList

/-- `sizeof(interface)` and `ARRAY_SIZE(bpf_str)`. -/
def interfaceSize : Nat := 32
def bpfStrSize : Nat := 256

def dltEn10mb : Int := 1

/-- What the process does not survive: `exit(0)` behind the usage, and a store outside of a
buffer. -/
inductive Gone
  | usage
  | overflow
  deriving DecidableEq, Repr

/-- What becomes of the process. -/
inductive Netled
  | gone (why : Gone)
  /-- `kill(getpid(), SIGTERM)` with the default action. -/
  | killed
  /-- `bailout(0)` without a packet. -/
  | unsupported
  | captures (device filter : List Char)
  deriving DecidableEq, Repr

/-- What the calls of `libpcap` answer, `true` where there is no error. -/
structure Libpcap where
  lookupdev : Option (List Char)
  openLive : List Char → Bool
  lookupnet : List Char → Bool
  compile : List Char → List Char → Bool
  setfilter : List Char → List Char → Bool
  datalink : List Char → Int

def interfaceOption (interface : List Char) : Opt → Except Gone (List Char)
  | .flag c => if c = 'h' then .error .usage else .ok interface
  | .arg c optarg =>
    if c = 'i' then
      (if optarg.length < interfaceSize then .ok optarg else .error .overflow)
    else .ok interface
  | .error => .ok interface

/-- The string in a buffer of `n` cells. -/
def readText (n : Nat) (buf : Nat → Char) : List Char :=
  ((List.range n).map buf).takeWhile (· ≠ nul)

def openPcapSocket (lib : Libpcap) (device bpfstr : List Char) : Option (List Char) :=
  (if device = [] then lib.lookupdev else some device).bind fun device =>
  if lib.openLive device = false then none
  else if lib.lookupnet device = false then none
  else if lib.compile device bpfstr = false then none
  else if lib.setfilter device bpfstr = false then none
  else some device

/-- Whether `capture_loop` comes to `pcap_loop`. -/
def captureLoop (lib : Libpcap) (device : List Char) : Bool :=
  decide (lib.datalink device = dltEn10mb)

def netledMain (args : List (List Char)) (lib : Libpcap) : Netled :=
  match (getopt netledOptstring args).foldlM interfaceOption [] with
  | .error why => .gone why
  | .ok interface =>
    match buildBpfStr bpfStrSize (p2f.map (·.bpfStr)) (fun _ => nul) with
    | none => .gone .overflow
    | some buf =>
      let bpfStr := readText bpfStrSize buf
      match openPcapSocket lib interface bpfStr with
      | none => .killed
      | some device => if captureLoop lib device then .captures device bpfStr else .unsupported

/-! ### The interface -/

section Interface

variable {opts : List Opt} {interface interface' : List Char}

def interfaceOf : Opt → Option (List Char)
  | .arg c optarg => if c = 'i' then some optarg else none
  | _ => none

/-- No option ends the loop. -/
def Harmless (opts : List Opt) : Prop :=
  .flag 'h' ∉ opts ∧ ∀ text, .arg 'i' text ∈ opts → text.length < interfaceSize

theorem harmless_concat {opt : Opt} :
    Harmless (opts ++ [opt]) ↔ Harmless opts ∧ Harmless [opt] := by
  simp only [Harmless, List.mem_append]
  grind

theorem interfaceOption_eq_ok_iff (interface : List Char) (opt : Opt) :
    interfaceOption interface opt = .ok interface' ↔
      Harmless [opt] ∧ interface' = (interfaceOf opt).getD interface := by
  cases opt with
  | flag c =>
    by_cases hc : c = 'h'
    · simp [interfaceOption, Harmless, hc]
    · simp [interfaceOption, Harmless, interfaceOf, hc, eq_comm]
  | arg c optarg =>
    by_cases hc : c = 'i'
    · subst hc
      by_cases hlen : optarg.length < interfaceSize
      · simp [interfaceOption, Harmless, interfaceOf, hlen, eq_comm]
      · simp [interfaceOption, Harmless, hlen]
    · simp [interfaceOption, Harmless, interfaceOf, hc, eq_comm]
  | error => simp [interfaceOption, Harmless, interfaceOf, eq_comm]

/-- The loop gets through exactly if no option ends it, and the last `-i` stays. -/
theorem foldlM_interface_iff (opts : List Opt) :
    opts.foldlM interfaceOption [] = .ok interface' ↔
      Harmless opts ∧ interface' = (lastOf interfaceOf opts).getD [] := by
  induction opts using List.reverseRecOn generalizing interface' with
  | nil => simp [Harmless, lastOf, pure, Except.pure, eq_comm]
  | append_singleton opts opt ih =>
    have hlast : ∀ interface, [opt].foldlM interfaceOption interface = .ok interface' ↔
        Harmless [opt] ∧ interface' = (interfaceOf opt).getD interface := by
      intro interface
      rw [List.foldlM_cons, ← interfaceOption_eq_ok_iff]
      cases interfaceOption interface opt <;> rfl
    rw [List.foldlM_append, lastOf_concat, harmless_concat]
    cases hfirst : opts.foldlM interfaceOption [] with
    | error why =>
      have hnot : ¬ Harmless opts := by
        intro h
        have hok := ih.mpr ⟨h, rfl⟩
        rw [hfirst] at hok
        cases hok
      refine ⟨fun h => (by cases h), fun h => absurd h.1.1 hnot⟩
    | ok interface =>
      obtain ⟨hharmless, rfl⟩ := ih.mp hfirst
      refine (hlast _).trans ?_
      rw [and_assoc]
      cases interfaceOf opt <;> simp [hharmless]

end Interface

/-! ### The filter -/

theorem readText_of_holds {n : Nat} {buf : Nat → Char} {text : List Char}
    (hlen : text.length < n) (hnul : nul ∉ text) (h : HoldsText buf text) :
    readText n buf = text := by
  obtain ⟨k, rfl⟩ := Nat.exists_eq_add_of_lt hlen
  have hfront : (List.range text.length).map buf = text := by
    apply List.ext_getElem
    · simp
    · intro i hi hi'
      have hcell := h.1 i hi'
      rw [List.getElem?_eq_getElem hi', Option.some_inj] at hcell
      rw [List.getElem_map, List.getElem_range, hcell]
  have hsplit : (List.range (text.length + k + 1)).map buf =
      text ++ nul :: (List.range k).map fun i => buf (text.length + (i + 1)) := by
    rw [Nat.add_assoc, List.range_add, List.map_append, hfront, List.range_succ_eq_map]
    simp [h.2, Function.comp_def]
  have hkeep : ∀ c ∈ text, decide (c ≠ nul) = true := by
    intro c hc
    refine decide_eq_true ?_
    rintro rfl
    exact hnul hc
  rw [readText, hsplit, List.takeWhile_append_of_pos hkeep, List.takeWhile_cons,
    if_neg (by simp), List.append_nil]

def netledFilter : List Char := "icmp or udp or arp or (!ip)".toList

theorem netledFilter_built : ∃ buf, buildBpfStr bpfStrSize (p2f.map (·.bpfStr)) (fun _ => nul) =
    some buf ∧ readText bpfStrSize buf = netledFilter := by
  refine ⟨_, buildBpfStr_eq (by decide) (by decide) _, ?_⟩
  exact readText_of_holds (by decide) (by decide) (finished_holds_joined (by decide) (by decide) _)

/-! ### The capture -/

theorem openPcapSocket_eq_some_iff {lib : Libpcap} {interface bpfstr device : List Char} :
    openPcapSocket lib interface bpfstr = some device ↔
      (if interface = [] then lib.lookupdev else some interface) = some device ∧
        lib.openLive device = true ∧ lib.lookupnet device = true ∧
        lib.compile device bpfstr = true ∧ lib.setfilter device bpfstr = true := by
  rw [openPcapSocket]
  cases (if interface = [] then lib.lookupdev else some interface) with
  | none => simp
  | some device' => grind

/-- **What is captured.**  The packets of a device reach the callbacks exactly if no option is
`-h` and no argument of an `-i` is longer than 31 characters, not even of one that a later one
replaces; the device is that of the last `-i` or, if there is none or an empty one, that of the
library; every call accepts it; and it is an Ethernet.  Unknown options change nothing. -/
theorem netled_captures_iff (args : List (List Char)) (lib : Libpcap) (device filter : List Char) :
    netledMain args lib = .captures device filter ↔
      filter = netledFilter ∧
      .flag 'h' ∉ getopt netledOptstring args ∧
      (∀ text, .arg 'i' text ∈ getopt netledOptstring args → text.length < interfaceSize) ∧
      ((lastOf interfaceOf (getopt netledOptstring args)).filter (· ≠ [])).or lib.lookupdev =
        some device ∧
      lib.openLive device = true ∧ lib.lookupnet device = true ∧
      lib.compile device filter = true ∧ lib.setfilter device filter = true ∧
      lib.datalink device = dltEn10mb := by
  obtain ⟨buf, hbuf, hread⟩ := netledFilter_built
  have hdevice : ∀ given : Option (List Char),
      (if given.getD [] = [] then lib.lookupdev else some (given.getD [])) =
        (given.filter (· ≠ [])).or lib.lookupdev := by
    intro given
    cases given with
    | none => rfl
    | some text => cases text <;> rfl
  rw [netledMain, hbuf]
  cases hfold : (getopt netledOptstring args).foldlM interfaceOption [] with
  | error why =>
    refine ⟨fun h => (by cases h), ?_⟩
    intro h
    have hok := (foldlM_interface_iff _).mpr ⟨⟨h.2.1, h.2.2.1⟩, rfl⟩
    rw [hfold] at hok
    cases hok
  | ok interface =>
    obtain ⟨⟨hhelp, hfits⟩, rfl⟩ := (foldlM_interface_iff _).mp hfold
    dsimp only
    rw [hread]
    refine ⟨?_, ?_⟩
    · intro h
      split at h
      next => cases h
      next device' hsocket =>
        rw [openPcapSocket_eq_some_iff, hdevice] at hsocket
        split at h
        next hlink =>
          cases h
          obtain ⟨hgiven, hopen, hnet, hcompile, hset⟩ := hsocket
          exact ⟨rfl, hhelp, hfits, hgiven, hopen, hnet, hcompile, hset, of_decide_eq_true hlink⟩
        next => cases h
    · intro h
      obtain ⟨rfl, -, -, hgiven, hopen, hnet, hcompile, hset, hlink⟩ := h
      have hsocket := openPcapSocket_eq_some_iff.mpr
        ⟨(hdevice _).trans hgiven, hopen, hnet, hcompile, hset⟩
      rw [hsocket]
      dsimp only
      rw [captureLoop, if_pos (decide_eq_true hlink)]

end Raspberries.NetLed
