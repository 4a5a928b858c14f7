import Mathlib.Algebra.Order.Group.Int
import Mathlib.Tactic.Linarith

/-! `struct timeval` of POSIX, with its microseconds below a second, and the macros on it. They
agree with the difference and the order of the microseconds since the epoch. -/
namespace Clock

/-- `struct timeval`. -/
structure Timeval where
  tvSec : ℤ
  tvUsec : ℤ
  usec_nonneg : 0 ≤ tvUsec
  usec_lt : tvUsec < 1000000
  deriving DecidableEq

/-- The microseconds since the epoch. -/
def Timeval.micros (t : Timeval) : ℤ := 1000000*t.tvSec+t.tvUsec

/-- `timerclear`. -/
def timerclear : Timeval := ⟨0,0,by decide,by decide⟩

/-- What `gettimeofday` stores. -/
def gettimeofday (micros : ℤ) : Timeval :=
  ⟨micros/1000000,micros%1000000,Int.emod_nonneg _ (by decide),Int.emod_lt_of_pos _ (by decide)⟩

/-- `timersub(a, b, &r)`. -/
def timersub (a b : Timeval) : Timeval :=
  if h : a.tvUsec-b.tvUsec < 0 then
    ⟨a.tvSec-b.tvSec-1,a.tvUsec-b.tvUsec+1000000,by
      have ha := a.usec_nonneg
      have hb := b.usec_lt
      omega,by omega⟩
  else ⟨a.tvSec-b.tvSec,a.tvUsec-b.tvUsec,by omega,by
    have ha := a.usec_lt
    have hb := b.usec_nonneg
    omega⟩

/-- `timercmp(a, b, >)`. -/
def timercmpGt (a b : Timeval) : Bool :=
  if a.tvSec = b.tvSec then b.tvUsec < a.tvUsec else b.tvSec < a.tvSec

variable (a b : Timeval)

@[simp] theorem micros_gettimeofday (n : ℤ) : (gettimeofday n).micros = n :=
  Int.mul_ediv_add_emod n 1000000

@[simp] theorem micros_timersub : (timersub a b).micros = a.micros-b.micros := by
  unfold timersub
  split <;> simp only [Timeval.micros] <;> omega

theorem timercmpGt_iff : timercmpGt a b = true ↔ b.micros < a.micros := by
  have ha := a.usec_nonneg
  have ha' := a.usec_lt
  have hb := b.usec_nonneg
  have hb' := b.usec_lt
  simp only [timercmpGt, Timeval.micros]
  split <;> rw [decide_eq_true_iff] <;> omega

/-- The test for an interval that has passed since a time. -/
theorem elapsed_iff (interval : Timeval) :
    timercmpGt (timersub a b) interval = true ↔ b.micros+interval.micros < a.micros := by
  rw [timercmpGt_iff, micros_timersub]
  omega

end Clock
