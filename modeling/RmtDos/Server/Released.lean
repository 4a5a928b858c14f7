import RmtDos.Server.Life

/-! The memory of the TSR is given back safely, unless the driver fails behind its registration. -/
namespace RmtDos
open Resumable Prog Runs

variable {im : Image} {m m' : TsrMemory} {out out' : Surroundings}

/-! The functions, call by call. -/

variable {α : Type} {ok : X86Call → Option CpuRegs → TsrMemory → Surroundings → Prop}
  {Q B : α → TsrMemory → Surroundings → Prop}

/-- A call that returns. -/
theorem exact_x86Call {Q B : CpuRegs → TsrMemory → Surroundings → Prop} {c : TsrMemory → X86Call}
    (hc : ∀ m, c m ≠ .goResident)
    (h : ∀ m' out', Relation.ReflTransGen (Other im) (m,out) (m',out') → ∀ r,
      (ok (c m') (some r) m' out' → Q r m' (answered out' (c m') r)) ∧
        (¬ ok (c m') (some r) m' out' → B r m' (answered out' (c m') r))) :
    Exact Answers (Other im) ok Q B (x86Call c) m out := by
  intro m' out' ho r out₂ ha
  cases r with
  | none => exact absurd ha.1 (hc m')
  | some r =>
    obtain rfl : out₂ = answered out' (c m') r := ha
    exact h m' out' ho r

/-- The driver has not been asked yet. -/
structure Unregistered (im : Image) (m : TsrMemory) (out : Surroundings) : Prop where
  unhooked : Unhooked im m out
  handle : m.pktdrvHandle = 0
  receiver : out.receiver = none

theorem Unregistered.others (h : Unregistered im m out)
    (ho : Relation.ReflTransGen (Other im) (m,out) (m',out')) : Unregistered im m' out' := by
  obtain ⟨hs,-⟩ := others_keep ho
  exact ⟨h.unhooked.others ho,hs.handle.trans h.handle,hs.receiver.trans h.receiver⟩

theorem exact_findIrq (h : Unregistered im m out) (irq : UInt16) :
    Exact Answers (Other im) (MainOk im) (fun _ m out => Unregistered im m out)
      (fun _ _ _ => False) (findIrq irq) m out := by
  rw [findIrq]
  split
  · apply Exact.bind (exact_x86Call (by simp) fun m' out' ho r => ⟨fun _ => h.others ho,?_⟩)
    · exact fun r m out hr => hr
    · exact fun r m out hb => hb
    · exact fun hno => hno trivial
  · exact h

/-- The driver has a receiver, whatever it answers now. -/
structure Receiving (im : Image) (m : TsrMemory) (out : Surroundings) : Prop where
  unhooked : Unhooked im m out
  receiver : out.receiver ≠ none

theorem Receiving.others (h : Receiving im m out)
    (ho : Relation.ReflTransGen (Other im) (m,out) (m',out')) : Receiving im m' out' := by
  obtain ⟨hs,-⟩ := others_keep ho
  exact ⟨h.unhooked.others ho,hs.receiver ▸ h.receiver⟩

/-- How `pktdrv_init` ends: on an error nothing is registered. -/
def InitEnds (im : Image) (code : UInt8) (m : TsrMemory) (out : Surroundings) : Prop :=
  Unhooked im m out ∧ (code ≠ 0 → out.receiver = none)

def InitFails (code : UInt8) (_ : TsrMemory) (out : Surroundings) : Prop :=
  code ≠ 0 ∧ out.receiver ≠ none

/-- If the query fails, `pktdrv_init` returns and does not release. -/
theorem exact_query {c : TsrMemory → X86Call} {f : CpuRegs → Startup UInt8}
    (hc : ∀ m, IsQuery (c m)) (h : Receiving im m out)
    (hf : ∀ r m' out', Receiving im m' out' →
      Exact Answers (Other im) (MainOk im) (InitEnds im) InitFails (f r) m' out') :
    Exact Answers (Other im) (MainOk im) (InitEnds im) InitFails
      ((x86Call c).bind fun r => if r.carry then .done r.dh else f r) m out := by
  have hquery (m' : TsrMemory) (out' : Surroundings) (r : CpuRegs) :
      MainOk im (c m') (some r) m' out' ↔ (r.carry → r.dh = 0) := by
    have hq := hc m'
    cases hcm : c m' <;> simp_all [IsQuery, MainOk]
  apply @Exact.bind _ _ _ _ _ _ _ _ _ _
    (fun r m' out' => Receiving im m' out' ∧ (r.carry → r.dh = 0))
    (fun r m' out' => Receiving im m' out' ∧ r.carry ∧ r.dh ≠ 0)
  · refine exact_x86Call (fun m' hm => ?_) fun m' out' ho r => ?_
    · have hq := hc m'
      rw [hm] at hq
      exact hq
    · rw [answered_query (hc m'), hquery]
      have hr := h.others ho
      exact ⟨fun h0 => ⟨hr,h0⟩,fun h0 => ⟨hr,Classical.not_imp.mp h0⟩⟩
  · rintro r m' out' ⟨hr,h0⟩
    split
    · next hcarry => exact ⟨hr.unhooked,fun hne => absurd (h0 hcarry) hne⟩
    · exact hf r m' out' hr
  · rintro r m' out' ⟨hr,hcarry,hne⟩
    rw [if_pos hcarry]
    exact ⟨hne,hr.receiver⟩

/-- After `pktdrv_init` the driver keeps a receiver only if the call has succeeded. -/
theorem exact_pktdrvInit (h : Unhooked im m out) (hnone : out.receiver = none) (irq : UInt16) :
    Exact Answers (Other im) (MainOk im) (InitEnds im) InitFails (pktdrvInit irq) m out := by
  have hstart : Unregistered im
      { m with pktdrvIrq := 0, pktdrvHandle := 0, pktdrvInfo := noPktDrvInfo } out :=
    ⟨⟨h.pointers,.inl ⟨hnone,rfl⟩,h.owned⟩,rfl,hnone⟩
  apply Exact.bind (exact_findIrq hstart irq)
  · clear h hnone hstart
    intro irq m out h
    split
    · exact ⟨h.unhooked,fun _ => h.receiver⟩
    · apply @Exact.bind _ _ _ _ _ _ _ _ _ _
        (fun r m' out' => if r.carry then Unregistered im m' out' else
          Receiving im { m' with pktdrvIrq := irq, pktdrvHandle := r.ax } out') fun _ _ _ => False
      · refine exact_x86Call (by simp) fun m' out' ho r => ⟨fun _ => ?_,fun hno => hno trivial⟩
        have h' := h.others ho
        rw [answered_accessType]
        split
        · exact h'
        · exact ⟨⟨h'.unhooked.pointers,.inr ⟨_,rfl,fun _ => rfl⟩,h'.unhooked.owned⟩,
            Option.some_ne_none _⟩
      · intro r m' out' hr
        split
        · next hcarry =>
          rw [if_pos hcarry] at hr
          exact ⟨hr.unhooked,fun _ => hr.receiver⟩
        · next hcarry =>
          rw [if_neg hcarry] at hr
          refine exact_query (fun _ => trivial) hr fun r₁ m₁ out₁ h₁ => ?_
          refine exact_query (fun _ => trivial) ⟨⟨h₁.unhooked.pointers,h₁.unhooked.registered,
            h₁.unhooked.owned⟩,h₁.receiver⟩ fun r₂ m₂ out₂ h₂ => ?_
          exact ⟨⟨h₂.unhooked.pointers,h₂.unhooked.registered,h₂.unhooked.owned⟩,
            fun hne => absurd rfl hne⟩
      · exact fun _ _ _ hno => hno.elim
  · exact fun _ _ _ hno => hno.elim

/-! The ends of `main`. -/

def MainEnds (im : Image) : MainEnd → TsrMemory → Surroundings → Prop
  | .exits _, m, out => Unreferenced im m out
  | .goesResident, m, out => Installed im m out

def MainFails (im : Image) : MainEnd → TsrMemory → Surroundings → Prop
  | .exits _, m, out => ¬ Unreferenced im m out
  | .goesResident, _, _ => False

/-- The end of `main` when DOS has refused. -/
def giveUp : Startup MainEnd := pktdrvDone.bind fun _ => .done (.exits 1)

theorem giveUp_noHandle (h : m.pktdrvHandle = 0) :
    giveUp.advance m = ([],{ m with pktdrvIrq := 0, pktdrvHandle := 0 },.done (.exits 1)) := by
  simp [giveUp, pktdrvDone, getMemory, setMemory, advance, h]

/-- Without a handle `main` exits as it is. -/
theorem exact_giveUp_noHandle (h : m.pktdrvHandle = 0) (hu : Unreferenced im m out) :
    Exact Answers (Other im) (MainOk im) (MainEnds im) (MainFails im) giveUp m out := by
  simp only [giveUp, pktdrvDone, getMemory, setMemory, bind_eq, get_bind, modify_bind, done_bind,
    pure_eq, exact_get, h, ne_eq, not_true_eq_false, if_false, exact_modify, exact_done]
  exact hu

/-- With a handle all depends on the release. -/
theorem exact_giveUp {irq : UInt8} (h : m.pktdrvHandle ≠ 0)
    (hreceiver : out.receiver = some (irq,m.pktdrvHandle)) (hirq : irq = m.pktdrvIrq.toUInt8) :
    Exact Answers (Other im) (MainOk im) (MainEnds im) (MainFails im) giveUp m out := by
  simp only [giveUp, pktdrvDone, getMemory, setMemory, bind_eq, get_bind, modify_bind, done_bind,
    pure_eq, exact_get, h, ne_eq, not_false_eq_true, if_true, bind_assoc]
  apply @Exact.bind _ _ _ _ _ _ _ _ _ _
    (fun r m' out' => r.carry = false ∧ Unreferenced im m' out')
    (fun r m' out' => ¬ Unreferenced im m' out')
  · refine exact_x86Call (by simp) fun m' out' ho r => ?_
    obtain ⟨hs,-⟩ := others_keep ho
    have hrec : out'.receiver = some (m'.pktdrvIrq.toUInt8,m'.pktdrvHandle) := by
      rw [hs.receiver, hreceiver, hirq, hs.irq, hs.handle]
    rw [MainOk, answered_releaseType, hrec]
    constructor
    · rintro ⟨hc,hv⟩
      rw [if_pos ⟨hc,rfl⟩]
      exact ⟨hc,hv,rfl⟩
    · intro hno hu
      by_cases hc : r.carry = false
      · rw [if_pos ⟨hc,rfl⟩] at hu
        exact hno ⟨hc,hu.1⟩
      · rw [if_neg fun hcr => hc hcr.1] at hu
        exact Option.some_ne_none _ (hrec.symm.trans hu.2)
  · rintro r m' out' ⟨hc,hu⟩
    simp only [hc, Bool.false_eq_true, if_false, modify_bind, done_bind, exact_modify, exact_done]
    exact hu
  · intro r m' out' hu
    cases r.carry
    · exact hu
    · exact hu

/-- The last call of `main`. -/
def goResident : Startup MainEnd :=
  .call (fun _ => .goResident) (fun _ m => m) fun
    | none => .done .goesResident
    | some _ => .modify restoreInterruptHandlers giveUp

/-- DOS refuses, or the call does not return. -/
theorem exact_goResident (h : Installed im m out) :
    Exact Answers (Other im) (MainOk im) (MainEnds im) (MainFails im) goResident m out := by
  intro m' out' ho r out₂ ha
  have hi := h.others ho
  cases r with
  | none =>
    obtain ⟨-,rfl⟩ := ha
    exact ⟨fun _ => hi,fun hno => absurd trivial hno⟩
  | some r =>
    obtain rfl : out₂ = out' := ha
    have hout (v : Hooked) : ¬ im.Inside ((restoreInterruptHandlers m').vects v) := hi.original v
    simp only [MainOk, exact_modify, ends_modify]
    by_cases hh : m'.pktdrvHandle = 0
    · have hzero : (restoreInterruptHandlers m').pktdrvHandle = 0 := hh
      constructor
      · intro hok
        refine exact_giveUp_noHandle hzero ⟨hout,?_⟩
        obtain ⟨hn,-⟩ | ⟨q,hq,-⟩ := hi.registered
        · exact hn
        · exact absurd (hh ▸ hq) (hok hh q)
      · intro hno
        obtain ⟨-,q,hq⟩ : m'.pktdrvHandle = 0 ∧ ∃ q, out₂.receiver = some (q,0) := by
          simpa using hno
        refine ends_advance.mpr ⟨.exits 1,?_,?_⟩
        · rw [giveUp_noHandle hzero]
        · rw [giveUp_noHandle hzero]
          exact fun hu => Option.some_ne_none _ (hq.symm.trans hu.2)
    · refine ⟨fun _ => ?_,fun hno => absurd (fun hz => absurd hz hh) hno⟩
      obtain ⟨-,hz⟩ | ⟨q,hq,hirq⟩ := hi.registered
      · exact absurd hz hh
      · exact exact_giveUp hh hq (hirq hh)

/-- `main` gives the memory back safely as long as the answers are the ones of `MainOk`. -/
theorem exact_main (h : Unhooked im m out) (hnone : out.receiver = none) (unload : Bool)
    (irq : UInt16) :
    Exact Answers (Other im) (MainOk im) (MainEnds im) (MainFails im) (main im unload irq) m
      out := by
  have hunref {m' : TsrMemory} {out' : Surroundings} (h' : Unhooked im m' out')
      (hn : out'.receiver = none) : Unreferenced im m' out' :=
    ⟨fun v => not_inside_of_ownPointers (h'.pointers v),hn⟩
  have hmultiplex {m : TsrMemory} {out : Surroundings} (h : Unhooked im m out)
      (hnone : out.receiver = none) (dx : UInt16) :
      Exact Answers (Other im) (MainOk im)
        (fun _ m' out' => Unhooked im m' out' ∧ out'.receiver = none) (fun _ _ _ => False)
        (x86Call fun _ => .multiplex dx) m out :=
    exact_x86Call (by simp) fun m' out' ho r =>
      ⟨fun _ => ⟨h.others ho,(others_keep ho).1.receiver.trans hnone⟩,fun hno => hno trivial⟩
  rw [main]
  apply Exact.bind (hmultiplex h hnone _)
  · rintro r m₁ out₁ ⟨h₁,hn₁⟩
    split
    · split
      · exact hunref h₁ hn₁
      split
      · apply Exact.bind (hmultiplex h₁ hn₁ _)
        · rintro _ m₂ out₂ ⟨h₂,hn₂⟩
          exact hunref h₂ hn₂
        · exact fun _ _ _ hno => hno.elim
      · exact hunref h₁ hn₁
    split
    · exact hunref h₁ hn₁
    apply Exact.bind (exact_pktdrvInit h₁ hn₁ irq)
    · rintro code m₂ out₂ ⟨h₂,hcode⟩
      split
      · next hne => exact hunref h₂ (hcode hne)
      · show Exact Answers (Other im) (MainOk im) (MainEnds im) (MainFails im)
          ((x86Call fun _ => .freeEnv).bind fun _ => goResident) (installInterruptHandlers im m₂)
          out₂
        apply @Exact.bind _ _ _ _ _ _ _ _ _ _ (fun _ m' out' => Installed im m' out')
          fun _ _ _ => False
        · exact exact_x86Call (by simp) fun m' out' ho r =>
            ⟨fun _ => h₂.install.others ho,fun hno => hno trivial⟩
        · exact fun _ _ _ h₃ => exact_goResident h₃
        · exact fun _ _ _ hno => hno.elim
    · rintro code m₂ out₂ ⟨hne,hrec⟩
      rw [if_pos hne]
      exact fun hu => hrec hu.2
  · exact fun _ _ _ hno => hno.elim

/-! The uninstall command. -/

/-- The TSR stays as it was, or is gone. -/
def HandlerEnds (im : Image) (m : TsrMemory) (out : Surroundings) : Prop :=
  if out.owned then Installed im m out else Unreferenced im m out

def HandlerFails (im : Image) (m : TsrMemory) (out : Surroundings) : Prop :=
  out.owned = false ∧ ¬ Unreferenced im m out

theorem Installed.handlerEnds (h : Installed im m out) : HandlerEnds im m out := by
  rw [HandlerEnds, if_pos h.owned]
  exact h

/-- The state when the block is to be freed. -/
structure Uninstalled (im : Image) (m : TsrMemory) (out : Surroundings) : Prop where
  unhooked : Unhooked im m out
  original : ∀ v, ¬ im.Inside (m.original v)

theorem Uninstalled.others (h : Uninstalled im m out)
    (ho : Relation.ReflTransGen (Other im) (m,out) (m',out')) : Uninstalled im m' out' := by
  obtain ⟨hs,-⟩ := others_keep ho
  exact ⟨h.unhooked.others ho,hs.original ▸ h.original⟩

theorem exact_pktdrvDone (h : Uninstalled im m out) :
    Exact Answers (Other im) HandlerOk (fun _ => Uninstalled im) (fun _ _ _ => False)
      pktdrvDone m out := by
  simp only [pktdrvDone, getMemory, setMemory, bind_eq, get_bind, modify_bind, done_bind,
    pure_eq, exact_get]
  split
  · next hne =>
    -- until the handle is cleared, it names a registration that is gone
    apply @Exact.bind _ _ _ _ _ _ _ _ _ _
      (fun r m' out' => (∀ v, ownPointers im m' out' v = 0) ∧ out'.owned = true ∧
        (∀ v, ¬ im.Inside (m'.original v)) ∧
          if r.carry then Registered m' out' else out'.receiver = none)
      fun _ _ _ => False
    · refine exact_x86Call (by simp) fun m' out' ho r => ⟨fun _ => ?_,fun hno => hno trivial⟩
      have h' := h.others ho
      obtain ⟨hs,-⟩ := others_keep ho
      rw [← hs.handle] at hne
      obtain ⟨-,hz⟩ | ⟨q,hq,hirq⟩ := h'.unhooked.registered
      · exact absurd hz hne
      cases hc : r.carry with
      | false =>
        simp only [answered_releaseType, hq, hirq hne, hc, and_self, if_true, Bool.false_eq_true,
          if_false]
        exact ⟨h'.unhooked.pointers,h'.unhooked.owned,h'.original,trivial⟩
      | true =>
        simp only [answered_releaseType, hc, reduceCtorEq, false_and, if_false, if_true]
        exact ⟨h'.unhooked.pointers,h'.unhooked.owned,h'.original,h'.unhooked.registered⟩
    · rintro r m' out' ⟨hpointers,howned,horiginal,hregistered⟩
      cases hc : r.carry with
      | false =>
        rw [hc] at hregistered
        exact ⟨⟨hpointers,.inl ⟨hregistered,rfl⟩,howned⟩,horiginal⟩
      | true =>
        rw [hc] at hregistered
        exact ⟨⟨hpointers,hregistered,howned⟩,horiginal⟩
    · exact fun _ _ _ hno => hno.elim
  · next hz =>
    have hz : m.pktdrvHandle = 0 := not_not.mp hz
    refine ⟨⟨h.unhooked.pointers,?_,h.unhooked.owned⟩,h.original⟩
    obtain ⟨hn,-⟩ | ⟨q,hq,-⟩ := h.unhooked.registered
    · exact .inl ⟨hn,rfl⟩
    · exact .inr ⟨q,hz ▸ hq,fun hne => absurd rfl hne⟩

theorem Uninstalled.installed (h : Uninstalled im m out) : Installed im m out :=
  ⟨fun v => (h.unhooked.pointers v).le.trans (Nat.zero_le 1),h.original,h.unhooked.registered,
    h.unhooked.owned⟩

theorem Uninstalled.freed (h : Uninstalled im m out) :
    Unreferenced im m { out with owned := false } ↔
      m.pktdrvHandle = 0 ∧ ∀ irq, out.receiver ≠ some (irq,0) := by
  have hout (v : Hooked) : ¬ im.Inside (m.vects v) :=
    not_inside_of_ownPointers (h.unhooked.pointers v)
  constructor
  · rintro ⟨-,hnone⟩
    obtain ⟨-,hz⟩ | ⟨q,hq,-⟩ := h.unhooked.registered
    · refine ⟨hz,fun irq hirq => ?_⟩
      exact Option.some_ne_none _ (hirq.symm.trans hnone)
    · exact absurd (hq.symm.trans hnone) (Option.some_ne_none _)
  · rintro ⟨hz,hno⟩
    obtain ⟨hnone,-⟩ | ⟨q,hq,-⟩ := h.unhooked.registered
    · exact ⟨hout,hnone⟩
    · exact absurd (hz ▸ hq) (hno q)

/-- The block is freed safely as long as the answers are the ones of `HandlerOk`. -/
theorem exact_residentDoUninstall (h : Installed im m out) :
    Exact Answers (Other im) HandlerOk (fun _ => HandlerEnds im) (fun _ => HandlerFails im)
      (residentDoUninstall im) m out := by
  simp only [residentDoUninstall, getMemory, setMemory, bind_eq, get_bind, modify_bind, done_bind,
    pure_eq, exact_get]
  split
  · exact h.handlerEnds
  · next hcheck =>
    have hun : Uninstalled im (restoreInterruptHandlers m) out :=
      ⟨h.restore (not_not.mp hcheck),h.original⟩
    apply Exact.bind (exact_pktdrvDone hun)
    · intro _ m₁ out₁ h₁
      apply @Exact.bind _ _ _ _ _ _ _ _ _ _ (fun _ => HandlerEnds im) fun _ => HandlerFails im
      · refine exact_x86Call (by simp) fun m' out' ho r => ?_
        have h' := h₁.others ho
        cases hc : r.carry with
        | false =>
          simp only [HandlerOk, answered_freePsp, hc, HandlerEnds, HandlerFails,
            Bool.false_eq_true, if_false, true_and, true_implies, h'.freed]
          exact ⟨fun hok => hok,fun hno => hno⟩
        | true =>
          simp only [HandlerOk, answered_freePsp, hc, if_true, reduceCtorEq, false_implies,
            not_true_eq_false, true_implies, and_true]
          exact h'.installed.handlerEnds
      · exact fun _ _ _ hq => hq
      · exact fun _ _ _ hb => hb
    · exact fun _ _ _ hno => hno.elim

theorem exact_int2fHandler (h : Installed im m out) (regs : CpuRegs) :
    Exact Answers (Other im) HandlerOk (fun _ => HandlerEnds im) (fun _ => HandlerFails im)
      (int2fHandler im regs) m out := by
  simp only [int2fHandler, getMemory, bind_eq, get_bind, done_bind, pure_eq]
  split
  · exact h.handlerEnds
  split
  · apply Exact.bind (exact_residentDoUninstall h)
    · exact fun _ _ _ hq => hq
    · exact fun _ _ _ hb => hb
  · exact h.handlerEnds

/-! Whole lives. -/

/-- What holds between the steps. -/
def LifeInv (im : Image) (s : TsrLife) : Prop :=
  match s.life with
  | .starting p => p.Waits ∧
      Exact Answers (Other im) (MainOk im) (MainEnds im) (MainFails im) p s.memory s.out
  | .resident => Installed im s.memory s.out
  | .answering p => p.Waits ∧ Exact Answers (Other im) HandlerOk (fun _ => HandlerEnds im)
      (fun _ => HandlerFails im) p s.memory s.out
  | .gone => Unreferenced im s.memory s.out

theorem LifeInv.safelyReleased {s : TsrLife} (h : LifeInv im s) : SafelyReleased im s := by
  unfold SafelyReleased
  unfold LifeInv at h
  split
  · next hl => simpa only [hl] using h
  · trivial

theorem lifeInv_runMain {p : Startup MainEnd}
    (h : Exact Answers (Other im) (MainOk im) (MainEnds im) (MainFails im) p m out) :
    LifeInv im (runMain p m out) := by
  obtain ⟨hexact,hwaits | ⟨a,ha⟩⟩ := h.advance
  · cases hp : (p.advance m).2.2 with
    | call c store k =>
      rw [hp] at hexact hwaits
      simp only [LifeInv, runMain, hp]
      exact ⟨hwaits,hexact⟩
    | _ => exact absurd hwaits (by rw [hp]; exact id)
  · rw [ha] at hexact
    cases a with
    | exits code =>
      simp only [LifeInv, runMain, ha]
      exact hexact
    | goesResident =>
      simp only [LifeInv, runMain, ha]
      exact hexact

theorem runMain_fails {p : Startup MainEnd} (h : Ends (MainFails im) p m out) :
    ¬ SafelyReleased im (runMain p m out) := by
  obtain ⟨a,ha,hfails⟩ := ends_advance.mp h
  cases a with
  | exits code =>
    simp only [SafelyReleased, runMain, ha]
    exact hfails
  | goesResident => exact hfails.elim

theorem lifeInv_runHandler {p : Startup CpuRegs}
    (h : Exact Answers (Other im) HandlerOk (fun _ => HandlerEnds im) (fun _ => HandlerFails im) p
      m out) : LifeInv im (runHandler p m out) := by
  obtain ⟨hexact,hwaits | ⟨a,ha⟩⟩ := h.advance
  · cases hp : (p.advance m).2.2 with
    | call c store k =>
      rw [hp] at hexact hwaits
      simp only [LifeInv, runHandler, hp]
      exact ⟨hwaits,hexact⟩
    | _ => exact absurd hwaits (by rw [hp]; exact id)
  · rw [ha, exact_done, HandlerEnds] at hexact
    cases ho : out.owned with
    | true =>
      rw [ho, if_pos rfl] at hexact
      simp only [LifeInv, runHandler, ha, ho, if_true]
      exact hexact
    | false =>
      rw [ho, if_neg (by decide)] at hexact
      simp only [LifeInv, runHandler, ha, ho, Bool.false_eq_true, if_false]
      exact hexact

theorem runHandler_fails {p : Startup CpuRegs} (h : Ends (fun _ => HandlerFails im) p m out) :
    ¬ SafelyReleased im (runHandler p m out) := by
  obtain ⟨a,ha,ho,hfails⟩ := ends_advance.mp h
  simp only [SafelyReleased, runHandler, ha, ho, Bool.false_eq_true, if_false]
  exact hfails

variable {s s' : TsrLife} {e : LifeEvent}

theorem LifeInv.step (h : LifeInv im s) (hok : LifeOk im s e) (hs : LifeStep im s e s') :
    LifeInv im s' := by
  cases hs with
  | @other l m m' out out' hl ho =>
    have hrefl : Relation.ReflTransGen (Other im) (m,out) (m',out') := .single ho
    cases l with
    | starting p => exact ⟨h.1,h.2.others h.1 hrefl⟩
    | resident => exact Installed.others h hrefl
    | answering p => exact ⟨h.1,h.2.others h.1 hrefl⟩
    | gone => exact absurd rfl hl
  | main ha => exact lifeInv_runMain ((h.2 _ _ .refl _ _ ha).1 hok)
  | handler ha => exact lifeInv_runHandler ((h.2 _ _ .refl _ _ ha).1 hok)
  | multiplex regs => exact lifeInv_runHandler (exact_int2fHandler h regs)

theorem LifeInv.ok_of_safe (h : LifeInv im s) (hs : LifeStep im s e s')
    (hsafe : SafelyReleased im s') : LifeOk im s e := by
  by_contra hno
  cases hs with
  | @other l =>
    cases l with
    | starting p => cases p <;> exact hno trivial
    | answering p => cases p <;> exact hno trivial
    | _ => exact hno trivial
  | main ha => exact runMain_fails ((h.2 _ _ .refl _ _ ha).2 hno) hsafe
  | handler ha => exact runHandler_fails ((h.2 _ _ .refl _ _ ha).2 hno) hsafe
  | multiplex regs => exact hno trivial

/-- The program has just been loaded. -/
structure Loaded (im : Image) (m : TsrMemory) (out : Surroundings) : Prop where
  pointers : ∀ v, ownPointers im m out v = 0
  handle : m.pktdrvHandle = 0
  receiver : out.receiver = none
  owned : out.owned = true

/-- In every run, nothing points into the memory that is given back exactly if all answers are the
ones of `LifeOk`. -/
theorem safelyReleased_iff (h : Loaded im m out) (unload : Bool) (irq : UInt16)
    {tr : List (LifeEvent × TsrLife)}
    (hrun : Run (LifeStep im) (runMain (main im unload irq) m out) tr) :
    (∀ x ∈ tr, SafelyReleased im x.2) ↔
      Along (LifeOk im) (runMain (main im unload irq) m out) tr := by
  have hunhooked : Unhooked im m out := ⟨h.pointers,.inl ⟨h.receiver,h.handle⟩,h.owned⟩
  exact hrun.exact (LifeInv im) (SafelyReleased im) (fun _ _ _ hi hok hs => hi.step hok hs)
    (fun _ hi => hi.safelyReleased) (fun _ _ _ hi hs hsafe => hi.ok_of_safe hs hsafe)
    (lifeInv_runMain (exact_main hunhooked h.receiver unload irq))

/-! A start on which the driver answers `driver_info` with an error. -/

def sampleImage : Image where
  cs := 0x1000
  size := 0x4000
  isr
    | .int08 => 0x100
    | .int28 => 0x180
    | .int2f => 0x200
  isr_lt := by
    intro v
    cases v <;> decide

def sampleMemory : TsrMemory := ⟨0,0,noPktDrvInfo,fun _ => ⟨0,0⟩,fun _ => ⟨0xf000,0⟩⟩

def notInstalled : CpuRegs := ⟨0xfb00,0x5a98,0,0,false,[]⟩
def accessGranted : CpuRegs := ⟨1,0,0,0,false,[]⟩
def badCommand : CpuRegs := ⟨0,0,0,0x0b00,true,[]⟩

theorem loaded_sample : Loaded sampleImage sampleMemory ⟨none,[],true⟩ :=
  ⟨fun _ => rfl,rfl,rfl,rfl⟩

/-- `main` exits with the code 11, and the driver keeps the receiver. -/
theorem failedQuery_run : ∃ s₁ s₂ s₃, Run (LifeStep sampleImage)
    (runMain (main sampleImage false 0x60) sampleMemory ⟨none,[],true⟩)
    [(.answer (some notInstalled),s₁),(.answer (some accessGranted),s₂),
      (.answer (some badCommand),s₃)] ∧ ¬ SafelyReleased sampleImage s₃ := by
  refine ⟨_,_,_,.cons (.main rfl) (.cons (.main rfl) (.cons (.main rfl) (.nil _))),?_⟩
  rintro ⟨-,hnone⟩
  exact Option.some_ne_none _ hnone

theorem failedQuery_notSafelyReleased :
    ¬ ∀ (im : Image) (m : TsrMemory) (out : Surroundings) (unload : Bool) (irq : UInt16)
      (tr : List (LifeEvent × TsrLife)), Loaded im m out →
      Run (LifeStep im) (runMain (main im unload irq) m out) tr →
        ∀ x ∈ tr, SafelyReleased im x.2 := by
  intro h
  obtain ⟨s₁,s₂,s₃,hrun,hbad⟩ := failedQuery_run
  exact hbad (h _ _ _ _ _ _ loaded_sample hrun _
    (List.mem_cons_of_mem _ (List.mem_cons_of_mem _ List.mem_cons_self)))

theorem safelyReleased_iff_failedQuery : ∃ s₁ s₂ s₃,
    let start := runMain (main sampleImage false 0x60) sampleMemory ⟨none,[],true⟩
    let tr := [(.answer (some notInstalled),s₁),(.answer (some accessGranted),s₂),
      (.answer (some badCommand),s₃)]
    Run (LifeStep sampleImage) start tr ∧
      ((∀ x ∈ tr, SafelyReleased sampleImage x.2) ↔ Along (LifeOk sampleImage) start tr) := by
  obtain ⟨s₁,s₂,s₃,hrun,-⟩ := failedQuery_run
  exact ⟨s₁,s₂,s₃,hrun,safelyReleased_iff loaded_sample false 0x60 hrun⟩

end RmtDos
