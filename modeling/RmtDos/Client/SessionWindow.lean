import RmtDos.Client.FromReceived

/-! Drawing a text frame: the loop of `update_session_window` over the bytes that a frame brought.
The clearing around the text only writes to the window and is left out. -/
namespace RmtDos
open Memory Reading

inductive DrawFault
  | divisionByZero
  | outOfBounds (index : ℕ)
  | counterWraps
  | endless
  deriving DecidableEq

/-- A character on the window. -/
structure WindowCell where
  y : UInt16
  x : UInt16
  ch : UInt8
  attr : UInt8
  deriving DecidableEq

/-- `video_text_buffer[i]`. -/
def RemoteHost.textByte (rh : RemoteHost) (i : ℕ) : Except DrawFault UInt8 :=
  if h : i < 32768 then .ok (rh.videoTextBuffer ⟨i,h⟩) else .error (.outOfBounds i)

/-- The loop body without the step of the counter. -/
def drawCell (rh : RemoteHost) (i : UInt16) : Except DrawFault WindowCell :=
  if rh.textCols = 0 then .error .divisionByZero
  else do
    let y := (i >>> 1) / rh.textCols.toUInt16
    let x := (i >>> 1) % rh.textCols.toUInt16
    let ch ← rh.textByte i.toNat
    let attr ← rh.textByte (i.toNat+1)
    .ok ⟨y,x,ch,attr⟩

/-- The loop, from counter `i` on; the bound is an `int`. -/
def drawCells (rh : RemoteHost) (bound : ℕ) : ℕ → UInt16 → Except DrawFault (List WindowCell)
  | 0, _ => .error .endless
  | fuel+1, i =>
    if i.toNat < bound then do
      let cell ← drawCell rh i
      if 65536 ≤ i.toNat+2 then .error .counterWraps
      else do
        let cells ← drawCells rh bound fuel (i+2)
        .ok (cell :: cells)
    else .ok []

def updateSessionWindow (rh : RemoteHost) (videoOffset byteCount : UInt16) (fuel : ℕ) :
    Except DrawFault (List WindowCell) :=
  drawCells rh (videoOffset.toNat+byteCount.toNat) fuel videoOffset

/-- The loop ends, and no step of it is at fault. -/
def DrawnSafely (rh : RemoteHost) (videoOffset byteCount : UInt16) : Prop :=
  ∃ fuel cells, updateSessionWindow rh videoOffset byteCount fuel = .ok cells

variable {rh : RemoteHost} {bound : ℕ} {i : UInt16}

theorem ok_of_bind {α β : Type} {x : Except DrawFault α} {f : α → Except DrawFault β} {b : β}
    (h : (x >>= f) = .ok b) : ∃ a, x = .ok a ∧ f a = .ok b := by
  cases x with
  | error e => cases h
  | ok a => exact ⟨a,rfl,h⟩

theorem textByte_ok {n : ℕ} (h : n < 32768) :
    rh.textByte n = .ok (rh.videoTextBuffer ⟨n,h⟩) :=
  dif_pos h

theorem lt_of_textByte {n : ℕ} {b : UInt8} (hb : rh.textByte n = .ok b) : n < 32768 := by
  by_contra h
  rw [RemoteHost.textByte, dif_neg h] at hb
  cases hb

theorem drawCell_ok_iff :
    (∃ cell, drawCell rh i = .ok cell) ↔ rh.textCols ≠ 0 ∧ i.toNat+1 < 32768 := by
  rw [drawCell]
  split_ifs with hcols
  · simp [hcols]
  · constructor
    · rintro ⟨cell,hcell⟩
      obtain ⟨ch,-,hrest⟩ := ok_of_bind hcell
      obtain ⟨attr,hattr,-⟩ := ok_of_bind hrest
      exact ⟨hcols,lt_of_textByte hattr⟩
    · rintro ⟨-,hlt⟩
      rw [textByte_ok (Nat.lt_of_succ_lt hlt), textByte_ok hlt]
      exact ⟨_,rfl⟩

theorem toNat_add_two (h : i.toNat+2 < 65536) : (i+2).toNat = i.toNat+2 := by
  rw [UInt16.toNat_add]
  exact Nat.mod_eq_of_lt h

/-- One round of the loop. -/
theorem drawCells_succ_ok_iff {fuel : ℕ} :
    (∃ cells, drawCells rh bound (fuel+1) i = .ok cells) ↔
      (i.toNat < bound → rh.textCols ≠ 0 ∧ i.toNat+1 < 32768 ∧
        ∃ cells, drawCells rh bound fuel (i+2) = .ok cells) := by
  rw [drawCells]
  by_cases hlt : i.toNat < bound
  · rw [if_pos hlt]
    constructor
    · rintro ⟨cells,hcells⟩ -
      obtain ⟨cell,hcell,hrest⟩ := ok_of_bind hcells
      obtain ⟨hcols,hin⟩ := drawCell_ok_iff.mp ⟨cell,hcell⟩
      rw [if_neg (by omega)] at hrest
      obtain ⟨tail,htail,-⟩ := ok_of_bind hrest
      exact ⟨hcols,hin,tail,htail⟩
    · intro h
      obtain ⟨hcols,hin,tail,htail⟩ := h hlt
      obtain ⟨cell,hcell⟩ := drawCell_ok_iff.mpr ⟨hcols,hin⟩
      rw [hcell]
      refine ⟨cell :: tail,?_⟩
      show (if 65536 ≤ i.toNat+2 then _ else _) = _
      rw [if_neg (by omega), htail]
      rfl
  · rw [if_neg hlt]
    exact ⟨fun _ h => absurd h hlt,fun _ => ⟨[],rfl⟩⟩

/-- The loop is safe where it has nothing to draw, or a width, and does not stop at the last byte
of the buffer from an odd counter. -/
theorem drawCells_ok_iff (hb : bound ≤ 32768) :
    (∃ fuel cells, drawCells rh bound fuel i = .ok cells) ↔
      (i.toNat < bound → rh.textCols ≠ 0 ∧ ¬(i.toNat%2 = 1 ∧ bound = 32768)) := by
  constructor
  · rintro ⟨fuel,h⟩
    induction fuel generalizing i with
    | zero =>
      obtain ⟨cells,hcells⟩ := h
      cases hcells
    | succ fuel ih =>
      intro hlt
      obtain ⟨hcols,hin,htail⟩ := drawCells_succ_ok_iff.mp h hlt
      have hnext := ih htail
      rw [toNat_add_two (by omega)] at hnext
      refine ⟨hcols,?_⟩
      rintro ⟨hodd,hbound⟩
      exact (hnext (by omega)).2 ⟨by omega,hbound⟩
  · intro h
    -- the counter moves towards the bound
    induction hn : bound-i.toNat using Nat.strong_induction_on generalizing i with
    | h n ih =>
      by_cases hlt : i.toNat < bound
      · obtain ⟨hcols,hend⟩ := h hlt
        have hin : i.toNat+1 < 32768 := by omega
        have hstep := toNat_add_two (i := i) (by omega)
        obtain ⟨fuel,htail⟩ := ih (bound-(i+2).toNat) (by omega)
          (by rw [hstep]; exact fun _ => ⟨hcols,by omega⟩) rfl
        exact ⟨fuel+1,drawCells_succ_ok_iff.mpr fun _ => ⟨hcols,hin,htail⟩⟩
      · exact ⟨1,drawCells_succ_ok_iff.mpr fun hlt' => absurd hlt' hlt⟩

/-- What the parser of a screen frame lets through. -/
theorem incomingScreen_some {m : Mem} {hosts : HostList} {size offsetAt : ℕ} {k : Fin 16}
    {offset : UInt16} {data : List UInt8}
    (h : run m (incomingScreen hosts size offsetAt) = some (k,offset,data)) :
    (∃ rh, hosts.slot k = some rh) ∧ data.length+offset.toNat ≤ size := by
  simp only [incomingScreen, run_bind, run_bytes] at h
  cases hk : hostlistFindByMac (slice m 6 6) hosts with
  | none => simp [hk] at h
  | some j =>
    simp only [hk, run_bind, run_be16] at h
    split_ifs at h with hsize
    · simp at h
    · simp only [run_bind, run_bytes, run_pure, Option.some.injEq, Prod.mk.injEq] at h
      obtain ⟨rfl,rfl,rfl⟩ := h
      refine ⟨hostlistFindByMac_some hk,?_⟩
      rw [length_slice]
      exact Nat.not_lt.mp hsize

/-- What an accepted text frame leaves for the drawing. -/
theorem processIncomingVideoText_redraw {m : Mem} {hosts hosts' : HostList} {k : Fin 16}
    {offset : UInt16} {count : ℕ}
    (h : run m (processIncomingVideoText hosts) = (hosts',some (k,offset,count))) :
    ∃ rh, hosts'.slot k = some rh ∧ rh.textCols = m 27 ∧ count+offset.toNat ≤ 32768 := by
  simp only [processIncomingVideoText, run_bind] at h
  cases hin : run m (incomingScreen hosts 32768 30) with
  | none => simp [hin] at h
  | some r =>
    obtain ⟨j,o,data⟩ := r
    simp only [hin, run_bind, run_byte, run_pure, Prod.mk.injEq, Option.some.injEq] at h
    obtain ⟨rfl,rfl,rfl,rfl⟩ := h
    obtain ⟨⟨rh,hrh⟩,hfit⟩ := incomingScreen_some hin
    exact ⟨_,slot_updateHost_self hrh _,rfl,hfit⟩

/-- Exactly which accepted text frames are drawn without a fault: those that bring nothing, and
those with a width whose last byte is not drawn from an odd offset at the end of the buffer. -/
theorem updateSessionWindow_safe_iff (m : Mem) (hosts hosts' : HostList) (k : Fin 16)
    (offset : UInt16) (count : ℕ)
    (h : run m (processIncomingVideoText hosts) = (hosts',some (k,offset,count))) :
    ∃ rh, hosts'.slot k = some rh ∧
      (DrawnSafely rh offset (UInt16.ofNat count) ↔
        count = 0 ∨ m 27 ≠ 0 ∧ ¬(offset.toNat%2 = 1 ∧ offset.toNat+count = 32768)) := by
  obtain ⟨rh,hrh,hcols,hfit⟩ := processIncomingVideoText_redraw h
  have hcount : (UInt16.ofNat count).toNat = count := by
    rw [UInt16.toNat_ofNat']
    omega
  refine ⟨rh,hrh,?_⟩
  simp only [DrawnSafely, updateSessionWindow]
  rw [hcount, drawCells_ok_iff (by omega), hcols]
  constructor
  · intro hsafe
    rcases Nat.eq_zero_or_pos count with hzero | hpos
    · exact .inl hzero
    · exact .inr (hsafe (by omega))
  · rintro (rfl | hsafe) hlt
    · omega
    · exact hsafe

/-- A text frame of one byte for the end of the buffer, on a screen of 80 columns. -/
def lastByte : Mem := fun i => if i = 27 then 80 else if i = 30 then 127 else
  if i = 31 then 255 else if i = 33 then 1 else 0

/-- The counter reaches the last byte of the buffer. -/
theorem updateSessionWindow_safe_lastByte :
    ∃ rh, (run lastByte (processIncomingVideoText knownHost)).1.slot 0 = some rh ∧
      (DrawnSafely rh 32767 (UInt16.ofNat 1) ↔
        (1 : ℕ) = 0 ∨ lastByte 27 ≠ 0 ∧
          ¬((32767 : UInt16).toNat%2 = 1 ∧ (32767 : UInt16).toNat+1 = 32768)) :=
  updateSessionWindow_safe_iff lastByte knownHost _ 0 32767 1 rfl

/-- A frame for a screen without a width divides by it. -/
theorem updateSessionWindow_unsafe :
    ¬ ∀ m hosts hosts' (k : Fin 16) (offset : UInt16) (count : ℕ),
      run m (processIncomingVideoText hosts) = (hosts',some (k,offset,count)) →
        ∃ rh, hosts'.slot k = some rh ∧ DrawnSafely rh offset (UInt16.ofNat count) := by
  intro h
  obtain ⟨rh,hrh,hsafe⟩ := h cutText knownHost _ 0 0 1 rfl
  have hrun : run cutText (processIncomingVideoText knownHost) = (_,some (0,0,1)) := rfl
  obtain ⟨rh',hrh',hcols,-⟩ := processIncomingVideoText_redraw hrun
  cases hrh.symm.trans hrh'
  have hzero : cutText 27 = 0 := by decide
  exact ((drawCells_ok_iff (by decide)).mp hsafe (by decide)).1 (hcols.trans hzero)

end RmtDos
