import RmtDos.Lib.SlotTable
import RmtDos.Client.HostList

/-! The hosts that the two Linux clients know. Each has its own copy of the host list; the copies
differ in the checks on a frame. Memory for a record is always found. -/
namespace RmtDos
open Memory Reading SlotTable

/-- `struct RemoteHost` as far as a host list uses it. -/
structure HostRecord where
  index : ℕ
  ifAddr : MacAddr
  tvLastResp : ℕ
  status : StatusResponse
  deriving DecidableEq

/-- `g_remote_hosts`; a pointer to a record is its slot. -/
abbrev HostTable := Table HostRecord 16

/-- A packet in a receive buffer, and the time at which it is registered. -/
structure HostFrame where
  now : ℕ
  packet : Mem
  length : ℕ

namespace HostFrame

def etherShost (f : HostFrame) : MacAddr := Vector.ofFn fun j => f.packet (6+j.val)
def payloadLen (f : HostFrame) : UInt16 := ntohs (slice f.packet 22 2)
def pktType (f : HostFrame) : UInt16 := ntohs (slice f.packet 24 2)

/-- The `struct StatusResponse` behind the headers. -/
def status (f : HostFrame) : StatusResponse :=
  ⟨f.packet 26,f.packet 27,f.packet 28,f.packet 29,f.packet 30,f.packet 31⟩

end HostFrame

/-- A zeroed record with its index and address. -/
def HostRecord.created (index : ℕ) (ifAddr : MacAddr) : HostRecord :=
  ⟨index,ifAddr,0,⟨0,0,0,0,0,0⟩⟩

def noHosts : HostTable := Vector.replicate 16 none

/-- `hostlist_find_by_mac`. -/
def findHostByMac (ifAddr : MacAddr) (hosts : HostTable) : Option (Fin 16) :=
  find (fun s => s.any fun rh => rh.ifAddr = ifAddr) hosts

/-- `g_remote_hosts[index]`. -/
def hostAt (index : Fin 16) (hosts : HostTable) : Option (Fin 16) := (hosts.slot index).map fun _ => index

/-- `hostlist_register` behind the checks on the frame: `hostlist_find_by_mac`, else
`hostlist_allocate`, and the stores into the record. -/
def registerHost (update : HostRecord → HostRecord) (ifAddr : MacAddr) (hosts : HostTable) :
    HostTable :=
  register HostRecord.ifAddr HostRecord.created update ifAddr hosts

namespace CgaWeb

def hostlistFindByMac (ifAddr : MacAddr) (hosts : HostTable) : Option (Fin 16) :=
  findHostByMac ifAddr hosts

def hostlistFindByIndex (index : ℤ) (hosts : HostTable) : Option (Fin 16) :=
  if h : 0 ≤ index ∧ index < 16 then
    let slot : Fin 16 := ⟨index.toNat,by omega⟩
    if (hosts.slot slot).isSome then hostAt slot hosts else none
  else none

/-- `hostlist_iter` and the new `*iter`, or none where it returns `NULL`. -/
def hostlistIter (hosts : HostTable) (iter : ℕ) : Option (Fin 16 × ℕ) := next hosts iter

def hostlistRegister (hosts : HostTable) (f : HostFrame) : HostTable :=
  registerHost (fun rh => { rh with
    tvLastResp := f.now
    status := if f.pktType = 4 then f.status else rh.status }) f.etherShost hosts

end CgaWeb

namespace FileCommander

def hostlistFindByMac (ifAddr : MacAddr) (hosts : HostTable) : Option (Fin 16) :=
  findHostByMac ifAddr hosts

def hostlistFindByIndex (index : ℤ) (hosts : HostTable) : Option (Fin 16) :=
  if h : 0 ≤ index ∧ index < 16 then hostAt ⟨index.toNat,by omega⟩ hosts else none

def hostlistIter (hosts : HostTable) (iter : ℕ) : Option (Fin 16 × ℕ) := next hosts iter

def hostlistRegister (hosts : HostTable) (f : HostFrame) : HostTable :=
  if f.length < 26 then hosts
  else registerHost (fun rh => { rh with
    tvLastResp := f.now
    status := if f.pktType = 4 ∧ 6 ≤ f.payloadLen.toNat then f.status else rh.status })
    f.etherShost hosts

end FileCommander

/-- What a client may rely on after frames from the addresses have been registered. -/
structure HostRegistry (macs : List MacAddr) (hosts : HostTable)
    (byMac : MacAddr → HostTable → Option (Fin 16)) (byIndex : ℤ → HostTable → Option (Fin 16))
    (iterate : HostTable → ℕ → Option (Fin 16 × ℕ)) : Prop where
  index : ∀ (i : Fin 16) rh, hosts.slot i = some rh → rh.index = i.val
  distinct : ∀ (i j : Fin 16) rh rh', hosts.slot i = some rh → hosts.slot j = some rh' →
    rh'.ifAddr = rh.ifAddr → j = i
  arrival : ∀ i : Fin 16, (hosts.slot i).map HostRecord.ifAddr = (arrivals macs)[i.val]?
  found : ∀ (i : Fin 16) rh, hosts.slot i = some rh →
    byMac rh.ifAddr hosts = some i ∧ byIndex rh.index hosts = some i
  visited : Visits (iterate hosts) 0 ((List.finRange 16).filter fun i => (hosts.slot i).isSome)

/-- A frame that `FileCommander.hostlistRegister` does not take for one that is cut off. -/
def HostFrame.whole (f : HostFrame) : Bool := 26 ≤ f.length

/-- Both host lists keep the addresses in order and number their slots. -/
abbrev KeepsHosts (macs : List MacAddr) (hosts : HostTable) : Prop :=
  Registers HostRecord.ifAddr HostRecord.index macs hosts

variable {hosts : HostTable} {macs : List MacAddr} {f : HostFrame}

theorem KeepsHosts.registerHost {update : HostRecord → HostRecord} {ifAddr : MacAddr}
    (h : KeepsHosts macs hosts) (haddr : ∀ rh, (update rh).ifAddr = rh.ifAddr)
    (hindex : ∀ rh, (update rh).index = rh.index) :
    KeepsHosts (macs ++ [ifAddr]) (registerHost update ifAddr hosts) :=
  Registers.register h (fun _ => rfl) haddr (fun _ => rfl) hindex

/-- From the order and the numbers to what a client relies on. -/
theorem KeepsHosts.registry {byIndex : ℤ → HostTable → Option (Fin 16)}
    (h : KeepsHosts macs hosts)
    (hbyIndex : ∀ (i : Fin 16) rh, hosts.slot i = some rh → byIndex (i.val : ℤ) hosts = some i) :
    HostRegistry macs hosts findHostByMac byIndex next where
  index _ _ hr := h.slot_number hr
  distinct _ _ _ _ hr hr' hkey := h.slot_unique hr hr' hkey
  arrival i := h.slot_key i
  found i rh hr := by
    have hindex := h.slot_number hr
    rw [hindex]
    exact ⟨h.find_key hr,hbyIndex i rh hr⟩
  visited := visits_all hosts

namespace CgaWeb

theorem hostlistFindByIndex_slot {i : Fin 16} {rh : HostRecord} (hr : hosts.slot i = some rh) :
    hostlistFindByIndex (i.val : ℤ) hosts = some i := by
  have hin : (0 : ℤ) ≤ i.val ∧ (i.val : ℤ) < 16 := by omega
  rw [hostlistFindByIndex, dif_pos hin]
  simp [hostAt, hr]

theorem run_keeps (frames : List HostFrame) :
    KeepsHosts (frames.map HostFrame.etherShost) (frames.foldl hostlistRegister noHosts) := by
  induction frames using List.reverseRecOn with
  | nil => exact registers_nil
  | append_singleton frames f ih =>
    rw [List.map_append, List.map_singleton, List.foldl_append]
    exact ih.registerHost (fun _ => rfl) fun _ => rfl

end CgaWeb

namespace FileCommander

theorem hostlistFindByIndex_slot {i : Fin 16} {rh : HostRecord} (hr : hosts.slot i = some rh) :
    hostlistFindByIndex (i.val : ℤ) hosts = some i := by
  have hin : (0 : ℤ) ≤ i.val ∧ (i.val : ℤ) < 16 := by omega
  rw [hostlistFindByIndex, dif_pos hin]
  simp [hostAt, hr]

theorem run_keeps (frames : List HostFrame) :
    KeepsHosts ((frames.filter HostFrame.whole).map HostFrame.etherShost)
      (frames.foldl hostlistRegister noHosts) := by
  induction frames using List.reverseRecOn with
  | nil => exact registers_nil
  | append_singleton frames f ih =>
    rw [List.filter_append, List.map_append, List.foldl_append, List.foldl_cons, List.foldl_nil,
      hostlistRegister]
    split
    next hshort =>
      have hcut : f.whole = false := by
        simpa [HostFrame.whole] using hshort
      rw [List.filter_singleton, hcut]
      simpa using ih
    next hlong =>
      have hwhole : f.whole = true := by
        simpa [HostFrame.whole] using hlong
      rw [List.filter_singleton, hwhole]
      exact ih.registerHost (fun _ => rfl) fun _ => rfl

end FileCommander

/-! The screen client keeps the same addresses in the same slots. -/

/-- The hosts of the screen client without its buffers. -/
def SameHosts (screen : HostList) (hosts : HostTable) : Prop :=
  ∀ i : Fin 16, (screen.slot i).map (fun rh => (rh.ifAddr,rh.status)) =
    (hosts.slot i).map fun rh => (rh.ifAddr,rh.status)

variable {screen : HostList}

theorem etherShost_toList : f.etherShost.toList = slice f.packet 6 6 := by
  apply List.ext_getElem
  · simp
  · intro j h₁ h₂
    simp [HostFrame.etherShost]

theorem SameHosts.findByMac (h : SameHosts screen hosts) :
    hostlistFindByMac f.etherShost.toList screen = findHostByMac f.etherShost hosts := by
  unfold hostlistFindByMac findHostByMac find
  congr 1
  funext i
  have hi := congrArg (fun s => s.any fun x => x.1 = f.etherShost) (h i)
  simpa [Option.any_map, Vector.toList_inj] using hi

theorem SameHosts.allocate (h : SameHosts screen hosts) :
    hostlistAllocate screen = find Option.isNone hosts := by
  unfold hostlistAllocate find
  congr 1
  funext i
  have hi := congrArg Option.isNone (h i)
  simpa using hi

theorem SameHosts.set (h : SameHosts screen hosts) (i : Fin 16) {x : Option RemoteHost}
    {y : Option HostRecord}
    (hxy : x.map (fun rh => (rh.ifAddr,rh.status)) = y.map fun rh => (rh.ifAddr,rh.status)) :
    SameHosts (screen.put i x) (Vector.put hosts i y) := by
  intro j
  have hj := h j
  simp only [Fin.getElem_fin, Vector.getElem_set] at hj ⊢
  split_ifs
  · exact hxy
  · exact hj

/-- A status response is registered in the same slot. -/
theorem SameHosts.register (h : SameHosts screen hosts) (hf : f.pktType = 4) :
    SameHosts (run f.packet (hostlistRegister screen)) (CgaWeb.hostlistRegister hosts f) := by
  simp only [hostlistRegister, run_bind, run_bytes, run_byte]
  rw [← etherShost_toList, h.findByMac, h.allocate]
  unfold CgaWeb.hostlistRegister registerHost SlotTable.register
  rw [← findHostByMac]
  cases findHostByMac f.etherShost hosts with
  | some i =>
    refine h.set i ?_
    have hi := congrArg (Option.map fun x : MacAddr × StatusResponse => (x.1,f.status)) (h i)
    simp only [Option.map_map] at hi ⊢
    simpa [Function.comp_def, hf, HostFrame.status] using hi
  | none =>
    cases find Option.isNone hosts with
    | none => exact h
    | some i =>
      refine h.set i ?_
      have haddr : (Vector.ofFn fun j : Fin 6 => f.etherShost.toList[j.val]?.getD 0) =
          f.etherShost := by
        apply Vector.ext
        intro j hj
        simp
      simp only [hf, if_true, Option.map_some, haddr]
      rfl

theorem sameHosts_run (frames : List HostFrame) (hf : ∀ f ∈ frames, f.pktType = 4) :
    SameHosts (frames.foldl (fun screen f => run f.packet (hostlistRegister screen))
      (Vector.replicate 16 none)) (frames.foldl CgaWeb.hostlistRegister noHosts) := by
  induction frames using List.reverseRecOn with
  | nil =>
    intro i
    simp [noHosts]
  | append_singleton frames f ih =>
    rw [List.foldl_append, List.foldl_append]
    obtain ⟨hbefore,hlast⟩ := List.forall_mem_append.mp hf
    exact (ih hbefore).register (hlast f List.mem_cons_self)

/-- The screen client finds the hosts under the first sixteen addresses that have answered. -/
theorem screenHosts_arrival (frames : List HostFrame) (hf : ∀ f ∈ frames, f.pktType = 4)
    (i : Fin 16) : ((frames.foldl (fun screen f => run f.packet (hostlistRegister screen))
      (Vector.replicate 16 none)).slot i).map RemoteHost.ifAddr =
        (arrivals (frames.map HostFrame.etherShost))[i.val]? := by
  have hsame := congrArg (Option.map Prod.fst) (sameHosts_run frames hf i)
  rw [← (CgaWeb.run_keeps frames).slot_key i]
  simpa [Option.map_map, Function.comp_def] using hsame

/-- Both host lists hold the first sixteen addresses in the order of their first frames, and a host
keeps its index whatever comes later. -/
theorem hostlist_registry (frames later : List HostFrame) :
    HostRegistry (frames.map HostFrame.etherShost) (frames.foldl CgaWeb.hostlistRegister noHosts)
        CgaWeb.hostlistFindByMac CgaWeb.hostlistFindByIndex CgaWeb.hostlistIter ∧
      HostRegistry ((frames.filter HostFrame.whole).map HostFrame.etherShost)
        (frames.foldl FileCommander.hostlistRegister noHosts)
        FileCommander.hostlistFindByMac FileCommander.hostlistFindByIndex
        FileCommander.hostlistIter ∧
      (∀ (i : Fin 16) rh, (frames.foldl CgaWeb.hostlistRegister noHosts).slot i = some rh →
        ∃ rh', ((frames ++ later).foldl CgaWeb.hostlistRegister noHosts).slot i = some rh' ∧
          rh'.ifAddr = rh.ifAddr ∧ rh'.index = rh.index) ∧
      ∀ (i : Fin 16) rh, (frames.foldl FileCommander.hostlistRegister noHosts).slot i = some rh →
        ∃ rh', ((frames ++ later).foldl FileCommander.hostlistRegister noHosts).slot i = some rh' ∧
          rh'.ifAddr = rh.ifAddr ∧ rh'.index = rh.index := by
  refine ⟨?_,?_,fun i rh hr => ?_,fun i rh hr => ?_⟩
  · exact (CgaWeb.run_keeps frames).registry fun _ _ hr => CgaWeb.hostlistFindByIndex_slot hr
  · exact (FileCommander.run_keeps frames).registry fun _ _ hr =>
      FileCommander.hostlistFindByIndex_slot hr
  · have hall := CgaWeb.run_keeps (frames ++ later)
    rw [List.map_append] at hall
    exact (CgaWeb.run_keeps frames).slot_stays hall hr
  · have hall := FileCommander.run_keeps (frames ++ later)
    rw [List.filter_append, List.map_append] at hall
    exact (FileCommander.run_keeps frames).slot_stays hall hr

end RmtDos
