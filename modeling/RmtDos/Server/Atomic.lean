import RmtDos.Lib.Runs
import RmtDos.Server.PacketSpec
import RmtDos.Server.IdleSpec

/-! The TSR as a transition system, for any behaviour of DOS: packets and idle steps are atomic
and come in any order. -/
namespace RmtDos
open Resumable

/-- One step of the TSR; an idle step is labelled with the frames it sends. -/
inductive TsrEvent
  | packet (p : Packet)
  | idle (sent : List Reply)

/-- A packet, or an idle step with its calls and the frames that it sends. -/
inductive DiskEvent
  | packet (p : Packet)
  | idle (calls : List (DosCall × DosRegs)) (sent : List Reply)

variable {D : Type} (env : D → DosCall → DosRegs → D → Prop) (mac : MacAddr)

/-- The idle step uses any amount of fuel that lets it return. -/
def TsrStep (s : FileTransferState × D) : TsrEvent → FileTransferState × D → Prop
  | .packet p, s' => s' = (fileTransferHandlePacket p s.1,s.2)
  | .idle sent, s' => ∃ fuel,
    Prog.Exec env (fileTransferProcessIdle mac fuel) s.1 s.2 sent () s'.1 s'.2

variable {env} {mac} {g : FileTransferState} {d : D} {sent : List Reply}
  {s' : FileTransferState × D}

/-- Without a pending operation the idle step does nothing. -/
theorem tsrIdle_none (hn : g.pendingOp = .none) :
    TsrStep env mac (g,d) (.idle sent) s' ↔ sent = [] ∧ s' = (g,d) := by
  simp only [TsrStep, exec_idle, hn, true_and, ne_eq, not_true, false_and, or_false,
    exists_const, Prod.ext_iff]

theorem tsrIdle_op (hn : g.pendingOp ≠ .none) :
    TsrStep env mac (g,d) (.idle sent) s' ↔
      ∃ fuel, Prog.Exec env (idleOp mac fuel g.pendingOp) g.taken d sent () s'.1 s'.2 := by
  simp only [TsrStep, exec_idle, hn, false_and, false_or, ne_eq, not_false_eq_true, true_and]

/-- A deterministic DOS leaves each step one outcome. -/
theorem tsrIdle_unique {sent' : List Reply} {s'' : FileTransferState × D}
    (henv : ∀ d c r r' d₁ d₂, env d c r d₁ → env d c r' d₂ → r = r' ∧ d₁ = d₂)
    (h : TsrStep env mac (g,d) (.idle sent) s') (h' : TsrStep env mac (g,d) (.idle sent') s'') :
    sent = sent' ∧ s' = s'' := by
  by_cases hn : g.pendingOp = .none
  · obtain ⟨rfl,rfl⟩ := (tsrIdle_none hn).mp h
    obtain ⟨rfl,rfl⟩ := (tsrIdle_none hn).mp h'
    exact ⟨rfl,rfl⟩
  · obtain ⟨fuel,h⟩ := (tsrIdle_op hn).mp h
    obtain ⟨fuel',h'⟩ := (tsrIdle_op hn).mp h'
    obtain ⟨hs,-,hg,hd⟩ := (idleOp_mono (le_max_left fuel fuel') h).deterministic henv
      (idleOp_mono (le_max_right fuel fuel') h')
    exact ⟨hs,Prod.ext hg hd⟩

end RmtDos
