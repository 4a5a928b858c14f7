import RmtDos.Dos.Volume

/-! A request that is answered, and sent again because the answer is lost. For every kind of
request: whether the second execution leaves the files as they are and gives the same answer. -/
namespace RmtDos
open Resumable Prog Dos

variable (resolve : List UInt8 → Path) (listing : Volume → List UInt8 → List (Vector UInt8 43))
  (mac : MacAddr)

/-- The record and DOS. -/
abbrev VolumeState := FileTransferState × Machine

/-- The requests a client sends again when no answer comes. -/
def Retransmitted (r : Packet) : Prop :=
  match r.payload with
  | .dirListBegin .. | .dirListEnd .. => False
  | _ => True

def ReplyBody.status : ReplyBody → FileAckStatus
  | .fileAck _ _ status _ | .fileGetData _ _ _ status _ | .dirListData _ _ _ status _ => status

/-- With no operation pending, `r` is handled, and the idle step after it sends `sent`. -/
def Serves (s : VolumeState) (r : Packet) (sent : List Reply) (s' : VolumeState) : Prop :=
  s.1.pendingOp = .none ∧ TsrStep (machine resolve listing) mac
    (fileTransferHandlePacket r s.1,s.2) (.idle sent) s'

/-- Served once more, `r` is answered by `a` again and changes no file. -/
def SafeAgain (s : VolumeState) (r : Packet) (a : Reply) : Prop :=
  (∃ sent s', Serves resolve listing mac s r sent s') ∧
    ∀ sent s', Serves resolve listing mac s r sent s' → sent = [a] ∧ s'.2.volume = s.2.volume

/-- The requests that may be sent again. -/
def RepeatSafe (r : Packet) : Prop :=
  match r.payload with
  | .filePutEnd .. | .fileGetEnd .. | .fileMkdir .. | .fileDelete .. => False
  | .fileRename _ source target => dosPathEqual (nameOf source) (nameOf target)
  | _ => True

variable {resolve} {listing} {mac} {g g' : FileTransferState} {d d' : Machine} {a : Reply}
  {r : Packet} {s s₁ : VolumeState} {fuel : ℕ}

theorem safeAgain_iff : SafeAgain resolve listing mac s r a ↔
    ∃ s', Serves resolve listing mac s r [a] s' ∧ s'.2.volume = s.2.volume := by
  constructor
  · rintro ⟨⟨sent,s',hs⟩,hall⟩
    obtain ⟨rfl,hv⟩ := hall sent s' hs
    exact ⟨s',hs,hv⟩
  · rintro ⟨s',hs,hv⟩
    refine ⟨⟨[a],s',hs⟩,fun sent s'' hs'' => ?_⟩
    obtain ⟨rfl,rfl⟩ := tsrIdle_unique (fun d c r r' d₁ d₂ h h' => Prod.mk.inj (h.symm.trans h'))
      hs.2 hs''.2
    exact ⟨rfl,hv⟩

theorem carry_of_handleOf {q : DosRegs} (h : 0 ≤ handleOf q) : q.carry = false := by
  by_contra hc
  rw [handleOf, if_pos (by simpa using hc)] at h
  exact absurd h (by decide)

theorem nonneg_of_ok {h : Int16} (hs : statusOf (0 ≤ h) = .ok) : 0 ≤ h := by
  by_contra hn
  simp [statusOf, hn] at hs

/-- The handle just opened is closed first when the request comes again. -/
theorem closed_opened {h : UInt16} (hh : d.handles h ≠ none) (hlt : h < 0x8000) :
    Closed (machine resolve listing) true (handleOf (returns h [])) d (d.closed h) := by
  have hnn : ¬ handleOf (returns h []) < 0 := handleOf_nonneg rfl hlt
  simp only [Closed, hnn, not_false_eq_true, and_self, if_true]
  rw [toUInt16_handleOf rfl]
  exact ⟨_,(machine_close hh).mpr ⟨rfl,rfl⟩⟩

theorem closed_created {h : UInt16} {p : Path} (hf : d.handles h = none) :
    (d.created h p).closed h = { d with volume := d.volume.put p (.file []) } := by
  have hu : Function.update d.handles h none = d.handles := Function.update_eq_self_iff.mpr hf.symm
  simp only [Machine.created, Machine.closed, Machine.setPos, Function.update_idem, hu]

/-- Creating a file leads to the same state from every volume that differs in that file only. -/
theorem create_again {q : DosRegs} {name : List UInt8} {v : Volume} (hq : q.carry = false)
    (hc : machine resolve listing d (.create name) q d')
    (hv : v.put (resolve name) (.file []) = d.volume.put (resolve name) (.file []))
    (hn : v.find (resolve name) ≠ some .dir) :
    machine resolve listing { d with volume := v } (.create name) q d' := by
  obtain ⟨⟨hw,hp,-⟩,h,hf,rfl,rfl⟩ := (machine_create hq).mp hc
  refine (machine_create rfl).mpr ⟨⟨hw,hp.of_put hv.symm,hn⟩,h,hf,rfl,?_⟩
  simp [Machine.created, Machine.setPos, hv]

theorem putBegin_again (h : Exec (machine resolve listing) (idleOp mac fuel .putBegin) g d [a] () g' d')
    (hok : a.body.status = .ok) :
    Exec (machine resolve listing) (idleOp mac fuel .putBegin) g' d' [a] () g' d' := by
  obtain ⟨d₁,q,-,hc,rfl,ha⟩ := exec_putBegin.mp h
  obtain rfl := List.singleton_inj.mp ha
  have hnn := nonneg_of_ok hok
  have hq := carry_of_handleOf hnn
  obtain ⟨⟨-,hp,-⟩,k,hf,rfl,rfl⟩ := (machine_create hq).mp hc
  obtain ⟨hfree,hlt⟩ := freeHandle_spec hf
  have hagain := create_again hq hc (@Volume.put_put _ _ _ (.file []))
    (by simp [Volume.find_put_self hp.1])
  refine exec_putBegin.mpr ⟨_,_,?_,hagain,rfl,rfl⟩
  have hcl := @closed_opened resolve listing (d₁.created k (resolve (filenameStr g))) k
    (by simp [Machine.created, Machine.setPos]) hlt
  rw [closed_created hfree] at hcl
  simpa [hnn] using hcl

@[simp] theorem storeDta_storeDta (q : DosRegs) : storeDta q (storeDta q g) = storeDta q g := by
  unfold storeDta
  split_ifs <;> simp

@[simp] theorem storeDta_getOpened (q : DosRegs) (k : Int16) (n : UInt32) :
    storeDta q (getOpened k n g) = getOpened k n (storeDta q g) := by
  unfold storeDta
  split <;> rfl

theorem getOpened_getOpened (k : Int16) (n : UInt32) :
    getOpened k n (getOpened k n g) = getOpened k n g := rfl

/-- A file opened and found may be closed, opened and found again. -/
theorem openRead_again {q found : DosRegs} {name : List UInt8} {d₂ : Machine} (hq : q.carry = false)
    (ho : machine resolve listing d (.openRead name) q d₂)
    (hs : SizeQuery (machine resolve listing) name d₂ found d') :
    ∃ d₃ d₄, Closed (machine resolve listing) true (handleOf q) d' d₃ ∧
      machine resolve listing d₃ (.openRead name) q d₄ ∧
      SizeQuery (machine resolve listing) name d₄ found d' := by
  obtain ⟨hfile,k,hf,rfl,rfl⟩ := (machine_openRead hq).mp ho
  obtain ⟨hfree,hlt⟩ := freeHandle_spec hf
  obtain ⟨hfound,rfl⟩ := machine_sizeQuery.mp hs
  have hcl := @closed_opened resolve listing
    { d.setPos k (resolve name) 0 with search := (listing d.volume name).tail } k
    (by simp [Machine.setPos]) hlt
  have hd : ({ d.setPos k (resolve name) 0 with
      search := (listing d.volume name).tail } : Machine).closed k =
      { d with search := (listing d.volume name).tail } := by
    rw [← @closed_setPos { d with search := (listing d.volume name).tail } k (resolve name) 0 hfree]
    rfl
  rw [hd] at hcl
  refine ⟨_,_,hcl,(machine_openRead rfl).mpr ⟨hfile,k,hf,rfl,rfl⟩,machine_sizeQuery.mpr ⟨hfound,rfl⟩⟩

theorem getBegin_again (h : Exec (machine resolve listing) (idleOp mac fuel .getBegin) g d [a] () g' d')
    (hok : a.body.status = .ok) :
    Exec (machine resolve listing) (idleOp mac fuel .getBegin) g' d' [a] () g' d' := by
  obtain ⟨d₁,q,d₂,-,ho,⟨-,-,rfl,ha⟩ | ⟨hn,found,d₃,hq,⟨hs,rfl,rfl,ha⟩ | ⟨-,-,rfl,ha⟩⟩⟩ :=
    exec_getBegin.mp h
  · obtain rfl := List.singleton_inj.mp ha
    cases hok
  · have hc : q.carry = false := carry_of_handleOf (Int16.not_lt.mp hn)
    obtain ⟨d₄,d₅,hcl,ho',hq'⟩ := openRead_again hc ho hq
    have hs' : sizeFound found (getOpened (handleOf q) (sizeFound found g) (storeDta found g)) =
        sizeFound found g := by
      unfold sizeFound
      split
      · rfl
      · rw [storeDta_getOpened, storeDta_storeDta]
        rfl
    have hname : filenameStr (getOpened (handleOf q) (sizeFound found g) (storeDta found g)) =
        filenameStr g := by
      unfold storeDta
      split <;> rfl
    rw [exec_getBegin, hname]
    refine ⟨d₄,q,d₅,hcl,ho',.inr ⟨hn,found,d',hq',.inl ⟨by rwa [hs'],rfl,?_,?_⟩⟩⟩
    · rw [hs', storeDta_getOpened, storeDta_storeDta, getOpened_getOpened]
    · rw [hs', ha]
  · obtain rfl := List.singleton_inj.mp ha
    cases hok

/-- After a seek and a read, the same seek leads back to where the read started. -/
theorem seek_again {q q' : DosRegs} {h count : UInt16} {offset : UInt32} {d₁ : Machine}
    (hq : q.carry = false) (hs : machine resolve listing d (.seek h 0 offset) q d₁)
    (hr : machine resolve listing d₁ (.read h count) q' d') :
    machine resolve listing d' (.seek h 0 offset) q d₁ := by
  obtain ⟨p,pos,content,hb⟩ := behind_of_machine (.inl ⟨_,_,rfl⟩) hq hs
  obtain ⟨rfl,rfl⟩ := (machine_seek hb).mp hs
  have hb₁ := @behind_setPos _ _ _ _ offset.toNat _ hb
  obtain ⟨-,rfl⟩ := (machine_read hb₁).mp hr
  exact (machine_seek (behind_setPos hb₁)).mpr ⟨rfl,by rw [setPos_setPos, setPos_setPos]⟩

theorem getDataReq_again
    (h : Exec (machine resolve listing) (idleOp mac fuel .getDataReq) g d [a] () g' d')
    (hok : a.body.status = .ok) :
    Exec (machine resolve listing) (idleOp mac fuel .getDataReq)
      { g' with chunkOffset := g.chunkOffset, chunkCount := g.chunkCount } d' [a] () g' d' := by
  obtain ⟨-,-,rfl,ha⟩ | ⟨hr,q,d₁,hq,⟨-,-,rfl,ha⟩ | ⟨hp,q',hq',⟨-,rfl,ha⟩ | ⟨hn,rfl,ha⟩⟩⟩ :=
    exec_getDataReq.mp h
  iterate 3
    obtain rfl := List.singleton_inj.mp ha
    cases hok
  have hc : q.carry = false := by
    by_contra hc
    exact hp (if_pos (by simpa using hc))
  have hq₂ := seek_again hc hq hq'
  have hc' : q'.carry = false := carry_of_handleOf (Int16.not_lt.mp hn)
  have hstore (g : FileTransferState) :
      storeChunk q' g = { g with chunk := Bytes.overwrite g.chunk q'.data } := by
    simp [storeChunk, hc']
  have hg : chunkRead (handleOf q').toUInt16 (storeChunk q'
      { chunkRead (handleOf q').toUInt16 (storeChunk q' g) with
        chunkOffset := g.chunkOffset, chunkCount := g.chunkCount }) =
      chunkRead (handleOf q').toUInt16 (storeChunk q' g) := by
    simp [hstore, chunkRead]
  refine exec_getDataReq.mpr (.inr ⟨?_,q,d₁,?_,.inr ⟨hp,q',?_,.inr ⟨hn,hg.symm,ha⟩⟩⟩)
  · simpa [hstore, chunkRead, getRefused] using hr
  · simpa [hstore, chunkRead] using hq₂
  · simpa [hstore, chunkRead] using hq'

/-! The search of a listing reads of the page only the entries it has put there. -/

section Listing
variable {D : Type} {env : D → DosCall → DosRegs → D → Prop} {e e' : D} {os : List Reply}

/-- The page so far of two records that differ in the rest of the page only. -/
theorem pageNext_entries {m seen count : UInt16} {page : Vector DirListEntry 16}
    (hp : page.toList.take count.toNat = g.dirEntries.toList.take count.toNat) :
    ∃ page', pageNext m seen count { g with dirEntries := page } =
        ({ (pageNext m seen count g).1 with dirEntries := page' },(pageNext m seen count g).2) ∧
      page'.toList.take (pageNext m seen count g).2.toNat =
        (pageNext m seen count g).1.dirEntries.toList.take (pageNext m seen count g).2.toNat := by
  by_cases hc : g.dirStartIndex ≤ seen ∧ count < m
  · simp only [pageNext, hc, and_self, if_true]
    refine ⟨_,rfl,?_⟩
    have hn : (count+1).toNat ≤ count.toNat+1 := by
      rw [UInt16.toNat_add]
      exact Nat.mod_le _ _
    have hset (v : Vector DirListEntry 16) (x : DirListEntry) :
        (v.setIfInBounds count.toNat x).toList.take (count.toNat+1) =
          v.toList.take count.toNat ++ if count.toNat < 16 then [x] else [] := by
      rw [Vector.toList_setIfInBounds, List.take_add_one, List.take_set_of_le le_rfl]
      simp only [List.getElem?_set, if_true, Vector.length_toList]
      split_ifs <;> rfl
    have := congrArg (List.take (count+1).toNat) ((hset page (dtaEntry g.dta)).trans
      (hp ▸ (hset g.dirEntries (dtaEntry g.dta)).symm))
    simpa only [List.take_take, Nat.min_eq_left hn] using this
  · simp only [pageNext, hc, if_false]
    exact ⟨page,rfl,hp⟩

theorem collectLoop_entries {m seen count n : UInt16} {page : Vector DirListEntry 16}
    (h : Exec env (collectLoop m fuel seen count) g e os n g' e')
    (hp : page.toList.take count.toNat = g.dirEntries.toList.take count.toNat) :
    ∃ page', Exec env (collectLoop m fuel seen count) { g with dirEntries := page } e os n
        { g' with dirEntries := page' } e' ∧
      page'.toList.take n.toNat = g'.dirEntries.toList.take n.toNat := by
  induction fuel generalizing seen count g e page with
  | zero => exact h.elim
  | succ fuel ih =>
    obtain ⟨page₁,hn,hp₁⟩ := @pageNext_entries g m seen count page hp
    have hdta (q : DosRegs) (g : FileTransferState) (v : Vector DirListEntry 16) :
        storeDta q { g with dirEntries := v } = { storeDta q g with dirEntries := v } := by
      unfold storeDta
      split <;> rfl
    have hkept (q : DosRegs) (g : FileTransferState) : (storeDta q g).dirEntries = g.dirEntries := by
      unfold storeDta
      split <;> rfl
    rw [exec_collectLoop_succ] at h
    simp only [exec_collectLoop_succ, hn]
    obtain ⟨hlt,q,e₁,hq,⟨hc,h⟩ | ⟨hc,rfl,rfl,rfl,rfl⟩⟩ | ⟨hlt,rfl,rfl,rfl,rfl⟩ := h
    · obtain ⟨page₂,h₂,hp₂⟩ := @ih _ _ _ _ page₁ h (by rwa [hkept])
      exact ⟨page₂,.inl ⟨hlt,q,e₁,hq,.inl ⟨hc,by rwa [hdta]⟩⟩,hp₂⟩
    · exact ⟨page₁,.inl ⟨hlt,q,e',hq,.inr ⟨hc,rfl,rfl,(hdta _ _ _).symm,rfl⟩⟩,
        by rwa [hkept]⟩
    · exact ⟨page₁,.inr ⟨hlt,rfl,rfl,rfl,rfl⟩,hp₁⟩

end Listing

theorem storeDta_entryFound {l : List (Vector UInt8 43)} (v : Vector UInt8 43)
    (hl : (entryFound l).carry = false) :
    storeDta (entryFound l) { g with dta := v } = storeDta (entryFound l) g := by
  cases l with
  | nil => cases hl
  | cons e l => simp [storeDta, entryFound, returns, Bytes.overwrite_toList]

theorem collected_again {pattern : List UInt8} {count : UInt16}
    (h : Collected (machine resolve listing) fuel pattern g d count g' d')
    (hk : sansDir g' = sansDir g) :
    ∃ g₂, Collected (machine resolve listing) fuel pattern g' d' count g₂ d' ∧
      pageOf mac g₂ .ok count = pageOf mac g' .ok count := by
  obtain ⟨found,d₁,hf,hl⟩ := h
  obtain ⟨rfl,rfl⟩ := machine_findFirst.mp hf
  split_ifs at hl with hc
  · obtain ⟨rfl,rfl,rfl⟩ := hl
    exact ⟨g',⟨_,_,machine_findFirst.mpr ⟨rfl,rfl⟩,by simp [hc]⟩,rfl⟩
  -- the search changes nothing but its own place, so it starts from the same point again
  have hsame : d'.volume = d.volume ∧ d'.handles = d.handles := by
    refine hl.invariant (fun e => e.volume = d.volume ∧ e.handles = d.handles)
      (collectLoop_callsIn _ _ _) ?_ ⟨rfl,rfl⟩
    rintro e _ r e₁ rfl hs he
    obtain ⟨-,rfl⟩ := machine_findNext.mp hs
    exact he
  have hd : ({ d' with search := (listing d'.volume pattern).tail } : Machine) =
      { d with search := (listing d.volume pattern).tail } := by
    simp only [hsame]
  have hg : storeDta (entryFound (listing d.volume pattern)) g' =
      { storeDta (entryFound (listing d.volume pattern)) g with dirEntries := g'.dirEntries } := by
    have hdir (g : FileTransferState) (v : Vector DirListEntry 16) :
        storeDta (entryFound (listing d.volume pattern)) { g with dirEntries := v } =
          { storeDta (entryFound (listing d.volume pattern)) g with dirEntries := v } := by
      unfold storeDta
      split <;> rfl
    calc
      _ = storeDta (entryFound (listing d.volume pattern))
          { g with dta := g'.dta, dirEntries := g'.dirEntries } :=
        congrArg _ (eq_of_sansDir hk)
      _ = storeDta (entryFound (listing d.volume pattern)) { g with dirEntries := g'.dirEntries } :=
        @storeDta_entryFound { g with dirEntries := g'.dirEntries } _ g'.dta (by simpa using hc)
      _ = _ := hdir g g'.dirEntries
  have hlimit : pageLimit g' = pageLimit g := by
    rw [eq_of_sansDir hk]
    rfl
  obtain ⟨page,hl',hp⟩ := @collectLoop_entries _ _ _ _ _ _ _ _ _ _ _ _ g'.dirEntries hl (by simp)
  refine ⟨{ g' with dirEntries := page },⟨_,_,machine_findFirst.mpr ⟨rfl,rfl⟩,?_⟩,?_⟩
  · rw [hd, hlimit, hsame.1, if_neg hc, hg]
    exact hl'
  · simp [pageOf, hp]

theorem dirList_again
    (h : Exec (machine resolve listing) (idleOp mac fuel .dirListDataReq) g d [a] () g' d')
    (hok : a.body.status = .ok) :
    ∃ g₂, Exec (machine resolve listing) (idleOp mac fuel .dirListDataReq) g' d' [a] () g₂ d' := by
  obtain ⟨result,hcol,ha⟩ := exec_dirListDataReq.mp h
  have hk : sansDir g' = sansDir g := hcol.keeps collectDirEntries_keeps
  have hpath : dirPathStr g' = dirPathStr g := by
    rw [eq_of_sansDir hk]
    rfl
  obtain ⟨-,⟨-,rfl,-⟩ | ⟨pattern,count,saved,d₁,r₁,d₂,d₃,r₃,hpat,h₁,h₂,hc,h₄,rfl⟩⟩ :=
    exec_collectDirEntries.mp hcol
  · obtain rfl := List.singleton_inj.mp ha
    cases hok
  obtain ⟨rfl,rfl⟩ := (machine_dta (.inr (.inl rfl))).mp h₁
  obtain ⟨rfl,rfl⟩ := (machine_dta (.inl rfl)).mp h₂
  obtain ⟨rfl,rfl⟩ := (machine_dta (.inr (.inr ⟨_,_,rfl⟩))).mp h₄
  obtain ⟨g₂,hc₂,hpage⟩ := @collected_again _ _ mac _ _ _ _ _ _ _ hc hk
  refine ⟨g₂,exec_dirListDataReq.mpr ⟨(.ok,count),?_,hpage ▸ ha⟩⟩
  refine exec_collectDirEntries.mpr ⟨rfl,.inr ⟨pattern,count,returns 0 [],d',returns 0 [],d',d',
    returns 0 [],hpath ▸ hpat,?_,?_,hc₂,?_,rfl⟩⟩
  · exact (machine_dta (.inr (.inl rfl))).mpr ⟨rfl,rfl⟩
  · exact (machine_dta (.inl rfl)).mpr ⟨rfl,rfl⟩
  · exact (machine_dta (.inr (.inr ⟨_,_,rfl⟩))).mpr ⟨rfl,rfl⟩

/-! A copy: the loop reads of the chunk buffer only what it has just read from the file. -/

theorem machine_read_fills {h : UInt16} {q : DosRegs} (hq : q.carry = false)
    (hr : machine resolve listing d (.read h 512) q d') :
    q.data.length = q.ax.toNat ∧ q.data.length ≤ 512 := by
  obtain ⟨p,pos,content,hb⟩ := behind_of_machine (.inr ⟨_,rfl⟩) hq hr
  obtain ⟨rfl,-⟩ := (machine_read hb).mp hr
  have hl : ((content.drop pos).take (512 : UInt16).toNat).length ≤ 512 := by
    rw [List.length_take]
    exact Nat.min_le_left _ _
  refine ⟨?_,hl⟩
  rw [returns, UInt16.toNat_ofNat_of_lt']
  simp only [UInt16.size]
  omega

/-- The loop makes the same calls from every record. -/
theorem copyLoop_any {hin hout : Int16} {n : UInt32} {result : Bool × UInt32}
    (h : Exec (machine resolve listing) (copyLoop hin hout fuel n) g d [] result g' d')
    (k : FileTransferState) :
    ∃ k', Exec (machine resolve listing) (copyLoop hin hout fuel n) k d [] result k' d' := by
  induction fuel generalizing n g d k with
  | zero => exact h.elim
  | succ fuel ih =>
    obtain ⟨q,d₁,hr,hcases⟩ := exec_copyLoop_succ.mp h
    obtain ⟨hn,-,rfl,-,rfl⟩ | ⟨hn,-,rfl,-,rfl⟩ | ⟨hn,hz,q',d₂,hw,hend⟩ := hcases
    · exact ⟨_,exec_copyLoop_succ.mpr ⟨q,d',hr,.inl ⟨hn,rfl,rfl,rfl,rfl⟩⟩⟩
    · exact ⟨_,exec_copyLoop_succ.mpr ⟨q,d',hr,.inr (.inl ⟨hn,rfl,rfl,rfl,rfl⟩)⟩⟩
    -- what is written is what was read, whatever the buffer held before
    have hq : q.carry = false := carry_of_handleOf (Int16.not_lt.mp hn)
    obtain ⟨hlen,hle⟩ := machine_read_fills hq hr
    have htake (g : FileTransferState) :
        (storeChunk q g).chunk.toList.take (handleOf q).toUInt16.toNat = q.data := by
      have hs : (storeChunk q g).chunk = Bytes.overwrite g.chunk q.data := by simp [storeChunk, hq]
      rw [hs, toUInt16_handleOf hq, ← hlen, Bytes.take_overwrite _ _ hle]
    rw [htake] at hw
    rcases hend with ⟨hok,hl⟩ | ⟨hok,-,rfl,-,rfl⟩
    · obtain ⟨k',hl'⟩ := ih hl (storeChunk q k)
      exact ⟨k',exec_copyLoop_succ.mpr ⟨q,d₁,hr,.inr (.inr ⟨hn,hz,q',d₂,(htake k).symm ▸ hw,
        .inl ⟨hok,hl'⟩⟩)⟩⟩
    · exact ⟨_,exec_copyLoop_succ.mpr ⟨q,d₁,hr,.inr (.inr ⟨hn,hz,q',d',(htake k).symm ▸ hw,
        .inr ⟨hok,rfl,rfl,rfl,rfl⟩⟩)⟩⟩

/-- Between its opens and its closes, a copy has changed `d` only at its two handles and in its
target file. -/
structure Copying (d : Machine) (k₁ k₂ : UInt16) (ps pt : Path) (e : Machine) : Prop where
  source : ∃ pos, e.handles k₁ = some (ps,pos)
  target : ∃ pos, e.handles k₂ = some (pt,pos)
  others : ∀ h, h ≠ k₁ → h ≠ k₂ → e.handles h = d.handles h
  volume : e.volume.put pt (.file []) = d.volume.put pt (.file [])
  file : ∃ content, e.volume.find pt = some (.file content)
  search : e.search = d.search

theorem Copying.step {k₁ k₂ : UInt16} {ps pt : Path} {e e₁ : Machine} {c : DosCall} {q : DosRegs}
    (hk : k₁ ≠ k₂) (hpt : pt ≠ []) (h : Copying d k₁ k₂ ps pt e) (hc : ReadsOrWrites k₁ k₂ c)
    (hs : machine resolve listing e c q e₁) : Copying d k₁ k₂ ps pt e₁ := by
  obtain ⟨⟨i,hi⟩,⟨j,hj⟩,ho,hv,hf,hsearch⟩ := h
  cases c with
  | read k count =>
    obtain rfl : k = k₁ := hc
    cases hb : e.behind k with
    | none =>
      simp only [machine, Machine.int21, hb, Prod.mk.injEq] at hs
      exact hs.2 ▸ ⟨⟨i,hi⟩,⟨j,hj⟩,ho,hv,hf,hsearch⟩
    | some x =>
      obtain ⟨p,pos,content⟩ := x
      obtain ⟨-,rfl⟩ := (machine_read hb).mp hs
      obtain ⟨rfl,-⟩ : p = ps ∧ pos = i := by simpa [hi, eq_comm] using (behind_eq_some.mp hb).1
      refine ⟨⟨_,by simp [Machine.setPos]; rfl⟩,⟨j,?_⟩,fun h h₁ h₂ => ?_,hv,hf,hsearch⟩
      · simpa [Machine.setPos, Function.update_of_ne hk.symm] using hj
      · simpa [Machine.setPos, Function.update_of_ne h₁] using ho h h₁ h₂
  | write k data =>
    obtain rfl : k = k₂ := hc
    cases hb : e.behind k with
    | none =>
      simp only [machine, Machine.int21, hb, Prod.mk.injEq] at hs
      exact hs.2 ▸ ⟨⟨i,hi⟩,⟨j,hj⟩,ho,hv,hf,hsearch⟩
    | some x =>
      obtain ⟨p,pos,content⟩ := x
      obtain ⟨-,rfl⟩ := (machine_write hb).mp hs
      obtain ⟨rfl,-⟩ : p = pt ∧ pos = j := by simpa [hj, eq_comm] using (behind_eq_some.mp hb).1
      refine ⟨⟨i,?_⟩,⟨_,by simp [Machine.setPos]; rfl⟩,fun h h₁ h₂ => ?_,?_,?_,hsearch⟩
      · simpa [Machine.setPos, Function.update_of_ne hk] using hi
      · simpa [Machine.setPos, Function.update_of_ne h₂] using ho h h₁ h₂
      · exact Volume.put_put.trans hv
      · exact ⟨_,Volume.find_put_self hpt⟩
  | _ => exact hc.elim

theorem closed_handle {k : UInt16} {q : DosRegs} (hq : q = returns k []) (hlt : k < 0x8000)
    (hh : d.handles k ≠ none) (hc : Closed (machine resolve listing) true (handleOf q) d d') :
    d' = d.closed k := by
  subst hq
  have hnn : ¬ handleOf (returns k []) < 0 := handleOf_nonneg rfl hlt
  simp only [Closed, hnn, not_false_eq_true, and_self, if_true] at hc
  rw [toUInt16_handleOf rfl] at hc
  obtain ⟨r,hr⟩ := hc
  exact ((machine_close hh).mp hr).2

theorem Copying.closed {k₁ k₂ : UInt16} {ps pt : Path} {e : Machine}
    (h : Copying d k₁ k₂ ps pt e) (h₁ : d.handles k₁ = none) (h₂ : d.handles k₂ = none) :
    (e.closed k₂).closed k₁ = { d with volume := e.volume } := by
  have hh : Function.update (Function.update e.handles k₂ none) k₁ none = d.handles := by
    funext x
    by_cases hx₁ : x = k₁
    · subst hx₁
      simp [h₁]
    · by_cases hx₂ : x = k₂
      · subst hx₂
        simp [Function.update_of_ne hx₁, h₂]
      · rw [Function.update_of_ne hx₁, Function.update_of_ne hx₂, h.others x hx₁ hx₂]
  simp only [Machine.closed, hh, h.search]

theorem copyFile_again {result : Bool × UInt32}
    (h : Exec (machine resolve listing) (dosCopyFile fuel) g d [] result g' d')
    (hok : result.1 = true) {k : FileTransferState} (hs : filenameStr k = filenameStr g)
    (ht : targetStr k = targetStr g) :
    ∃ k', Exec (machine resolve listing) (dosCopyFile fuel) k d' [] result k' d' := by
  obtain ⟨-,q,d₁,ho,⟨-,rfl,-⟩ | ⟨hn,q',d₂,hc,⟨-,rfl,-⟩ | ⟨hn',d₃,d₄,hl,h₁,h₂⟩⟩⟩ := exec_dosCopyFile.mp h
  · cases hok
  · cases hok
  have hq : q.carry = false := carry_of_handleOf (Int16.not_lt.mp hn)
  have hq' : q'.carry = false := carry_of_handleOf (Int16.not_lt.mp hn')
  obtain ⟨⟨hw,source,hsource⟩,k₁,hf₁,rfl,rfl⟩ := (machine_openRead hq).mp ho
  obtain ⟨⟨hw',hplaced,-⟩,k₂,hf₂,rfl,rfl⟩ := (machine_create hq').mp hc
  obtain ⟨hfree₁,hlt₁⟩ := freeHandle_spec hf₁
  obtain ⟨hfree₂,hlt₂⟩ := freeHandle_spec hf₂
  have hk : k₁ ≠ k₂ := by
    rintro rfl
    simp [Machine.setPos] at hfree₂
  have hd₂ : d.handles k₂ = none := by
    simpa [Machine.setPos, Function.update_of_ne hk.symm] using hfree₂
  have hstart : Copying d k₁ k₂ (resolve (filenameStr g)) (resolve (targetStr g))
      ((d.setPos k₁ (resolve (filenameStr g)) 0).created k₂ (resolve (targetStr g))) := by
    refine ⟨⟨0,?_⟩,⟨0,?_⟩,fun h hh₁ hh₂ => ?_,Volume.put_put,⟨[],?_⟩,rfl⟩
    · simp [Machine.created, Machine.setPos, Function.update_of_ne hk]
    · simp [Machine.created, Machine.setPos]
    · simp [Machine.created, Machine.setPos, Function.update_of_ne hh₁, Function.update_of_ne hh₂]
    · exact Volume.find_put_self hplaced.1
  have hend := hl.invariant (Copying d k₁ k₂ (resolve (filenameStr g)) (resolve (targetStr g)))
    (copyLoop_callsIn _ _ _) (fun e c r e₁ hcall hs he => he.step hk hplaced.1 hcall hs) hstart
  obtain ⟨i,hi⟩ := hend.source
  obtain ⟨j,hj⟩ := hend.target
  obtain rfl := closed_handle rfl hlt₂ (hj ▸ (by simp)) h₁
  have hopen : (d₃.closed k₂).handles k₁ = some (resolve (filenameStr g),i) := by
    exact (Function.update_of_ne hk _ _).trans hi
  obtain rfl := closed_handle rfl hlt₁ (hopen ▸ (by simp)) h₂
  obtain ⟨k',hl'⟩ := copyLoop_any hl k
  refine ⟨k',exec_dosCopyFile.mpr ⟨rfl,returns k₁ [],
    { d.setPos k₁ (resolve (filenameStr g)) 0 with volume := d₃.volume },?_,.inr ⟨hn,
      returns k₂ [],_,?_,.inr ⟨hn',d₃,_,hl',h₁,h₂⟩⟩⟩⟩
  · rw [hend.closed hfree₁ hd₂, hs]
    refine (machine_openRead rfl).mpr ⟨⟨hw,?_⟩,k₁,hf₁,rfl,rfl⟩
    by_cases hst : resolve (filenameStr g) = resolve (targetStr g)
    · exact hst ▸ hend.file
    · exact ⟨source,(Volume.find_eq_of_put hend.volume hst).trans hsource⟩
  · obtain ⟨content,hcontent⟩ := hend.file
    rw [ht]
    exact create_again rfl hc hend.volume (hcontent ▸ (by simp))

theorem copy_again (h : Exec (machine resolve listing) (idleOp mac fuel .copy) g d [a] () g' d')
    (hok : a.body.status = .ok) :
    ∃ g₂, Exec (machine resolve listing) (idleOp mac fuel .copy) g' d' [a] () g₂ d' := by
  obtain ⟨-,-,rfl,ha⟩ | ⟨hne,result,g₁,hcp,rfl,ha⟩ := exec_copy.mp h
  · obtain rfl := List.singleton_inj.mp ha
    cases hok
  have hres : result.1 = true := by
    obtain rfl := List.singleton_inj.mp ha
    by_contra hres
    simp [ackOf, ReplyBody.status, statusOf, hres] at hok
  have hk := eq_of_sansChunk (hcp.keeps dosCopyFile_keeps)
  rw [hk] at ha ⊢
  obtain ⟨g₂,hcp'⟩ := @copyFile_again _ _ _ _ _ _ _ _ hcp hres
    { g with chunk := g₁.chunk, expectedOffset := result.2 } rfl rfl
  have hk₂ := eq_of_sansChunk (hcp'.keeps dosCopyFile_keeps)
  rw [hk₂] at hcp'
  exact ⟨_,exec_copy.mpr (.inr ⟨hne,result,_,hcp',rfl,ha⟩)⟩

theorem taken_of_none {op : FileOp} (hn : g.pendingOp = .none) :
    FileTransferState.taken { g with pendingOp := op } = g := by
  rw [FileTransferState.taken, ← hn]

/-- Enough for a request that, handled again, only becomes pending again: the operation leads
from the state it left to the same answer and the same DOS. -/
theorem safeAgain_of_exec (op : FileOp) (hop : op ≠ .none) (hn : g.pendingOp = .none)
    (hh : fileTransferHandlePacket r g = { g with pendingOp := op })
    (h : ∃ fuel g₂, Exec (machine resolve listing) (idleOp mac fuel op) g d [a] () g₂ d) :
    SafeAgain resolve listing mac (g,d) r a := by
  obtain ⟨fuel,g₂,h⟩ := h
  refine safeAgain_iff.mpr ⟨(g₂,d),⟨hn,?_⟩,rfl⟩
  simp only [hh]
  refine (tsrIdle_op hop).mpr ⟨fuel,?_⟩
  rwa [taken_of_none hn]

/-- An old chunk is answered from the record alone. -/
theorem safeAgain_of_reAck {t : UInt32} (hn : g.pendingOp = .none)
    (hh : fileTransferHandlePacket r g = ackQueued r t .ok g)
    (ha : a = ackOf mac (ackQueued r t .ok g) .data .ok g.expectedOffset) :
    SafeAgain resolve listing mac (g,d) r a := by
  refine safeAgain_iff.mpr
    ⟨({ (ackQueued r t .ok g).taken with expectedOffset := g.expectedOffset },d),⟨hn,?_⟩,rfl⟩
  simp only [hh]
  exact (tsrIdle_op (by simp [ackQueued])).mpr ⟨0,exec_ack.mpr ⟨rfl,rfl,by rw [ha]; rfl⟩⟩

theorem write_nil_again {h : UInt16} {q : DosRegs} (hq : q.carry = false)
    (hw : machine resolve listing d (.write h []) q d') :
    machine resolve listing d' (.write h []) q d' := by
  cases hb : d.behind h with
  | none =>
    simp only [machine, Machine.int21, hb, Prod.mk.injEq] at hw
    obtain ⟨rfl,-⟩ := hw
    cases hq
  | some x =>
    obtain ⟨p,pos,content⟩ := x
    obtain ⟨rfl,rfl⟩ := (machine_write hb).mp hw
    have hp : p ≠ [] := by
      rintro rfl
      cases (behind_eq_some.mp hb).2
    have hb' : ({ d.setPos h p (pos+0) with
        volume := d.volume.put p (.file (writeAt content pos [])) } : Machine).behind h =
        some (p,pos,writeAt content pos []) :=
      behind_eq_some.mpr ⟨by simp [Machine.setPos],Volume.find_put_self hp⟩
    refine (machine_write hb').mpr ⟨rfl,?_⟩
    simp [Machine.setPos, writeAt_nil_nil]

section PutData
variable {t offset : UInt32} {count : UInt16} {data : List UInt8}

/-- The record with a chunk queued for writing. -/
def dataQueued (r : Packet) (offset : UInt32) (count : UInt16) (data : List UInt8)
    (g : FileTransferState) : FileTransferState :=
  { rememberClient r g with
    chunkOffset := offset, chunkCount := count
    chunk := Bytes.overwrite g.chunk (data.take count.toNat), pendingOp := .putData }

theorem dataQueued_again (n : UInt32) :
    dataQueued r offset count data
        { (dataQueued r offset count data g).taken with expectedOffset := n } =
      { (dataQueued r offset count data g).taken with expectedOffset := n, pendingOp := .putData } := by
  simp [dataQueued, FileTransferState.taken, rememberClient]

theorem handle_putData (had : r.Admitted g) (hp : r.payload = .filePutData t offset count data)
    (ha : g.active = true) (hm : g.mode = .put) (ht : t = g.transferId)
    (hc : ¬ (512 < count.toNat ∨ r.payloadLen.toNat < 10+count.toNat)) :
    fileTransferHandlePacket r g =
      if offset = g.expectedOffset then dataQueued r offset count data g
      else ackQueued r t .ok g := by
  have hg : ¬ ((!g.active) = true ∨ g.mode ≠ .put ∨ t ≠ g.transferId) := by simp [ha, hm, ht]
  simp only [fileTransferHandlePacket, had.1, had.2, hp, hg, hc, ne_eq, not_true, if_false]
  by_cases ho : offset = g.expectedOffset
  · simp [ho, dataQueued]
  · simp [ho, queueAck_of_none had.1]

/-- A chunk that comes again is acknowledged again; one of no bytes cuts the file again. -/
theorem putData_again (hl : r.LongEnough) (hp : r.payload = .filePutData t offset count data)
    (ha : g.active = true) (hm : g.mode = .put) (ht : t = g.transferId) (ho : offset = g.expectedOffset)
    (hc : ¬ (512 < count.toNat ∨ r.payloadLen.toNat < 10+count.toNat))
    (h : Exec (machine resolve listing) (idleOp mac fuel .putData)
      (dataQueued r offset count data g).taken d [a] () g' d') (hok : a.body.status = .ok) :
    SafeAgain resolve listing mac (g',d') r a := by
  obtain ⟨-,-,-,ha'⟩ | ⟨-,q,hw,⟨hwok,rfl,ha'⟩ | ⟨-,-,ha'⟩⟩ := exec_putData.mp h
  · obtain rfl := List.singleton_inj.mp ha'
    cases hok
  swap
  · obtain rfl := List.singleton_inj.mp ha'
    cases hok
  have hhandle := @handle_putData { (dataQueued r offset count data g).taken with
    expectedOffset := g.expectedOffset+count.toUInt32 } r t offset count data ⟨rfl,hl⟩ hp ha hm ht hc
  by_cases hz : count = 0
  · subst hz
    have h0 : g.expectedOffset+(0 : UInt16).toUInt32 = offset := by simp [ho]
    rw [if_pos h0.symm, dataQueued_again] at hhandle
    have hq : q.carry = false := by
      by_contra hq
      simp [writeOk, hq] at hwok
    have hw' : machine resolve listing d'
        (.write g.handle.toUInt16 ((dataQueued r offset 0 data g).chunk.toList.take 0)) q d' :=
      write_nil_again hq hw
    refine safeAgain_of_exec .putData (by decide) rfl hhandle
      ⟨0,_,exec_putData.mpr (.inr ⟨h0.symm,q,hw',.inl ⟨hwok,rfl,?_⟩⟩)⟩
    rw [ha']
    simp [dataQueued, ackOf, FileTransferState.taken, rememberClient]
  · have hne : offset ≠ g.expectedOffset+count.toUInt32 := by
      rw [ho]
      intro he
      have hz' : count.toUInt32 = 0 := by simpa using he.symm
      exact hz (by simpa [← UInt32.toNat_inj, ← UInt16.toNat_inj] using hz')
    rw [if_neg hne] at hhandle
    refine safeAgain_of_reAck rfl hhandle ?_
    rw [List.singleton_inj.mp ha', ht]
    rfl

end PutData

/-! The services that cannot succeed twice. -/

/-- The services that make, remove or rename an entry. -/
def OnceOnly : DosCall → Prop
  | .mkdir _ | .rmdir _ | .unlink _ | .rename .. => True
  | _ => False

theorem refused_again {c : DosCall} {q q₂ : DosRegs} {d₂ : Machine} (hc : OnceOnly c)
    (hq : q.carry = false) (h : machine resolve listing d c q d')
    (h₂ : machine resolve listing d' c q₂ d₂) : q₂.carry = true := by
  have hno {e : Machine} (he : (refused,e) = (q,d')) : False := by
    obtain ⟨rfl,-⟩ := Prod.mk.inj he
    cases hq
  have hyes {e : Machine} (he : (refused,e) = (q₂,d₂)) : q₂.carry = true := by
    obtain ⟨rfl,-⟩ := Prod.mk.inj he
    rfl
  cases c with
  | mkdir name =>
    simp only [machine, Machine.int21] at h h₂
    split_ifs at h with ho
    · obtain ⟨-,rfl⟩ := Prod.mk.inj h
      rw [if_neg (by simp [Volume.find_put_self ho.2.1.1])] at h₂
      exact hyes h₂
    · exact (hno h).elim
  | rmdir name =>
    simp only [machine, Machine.int21] at h h₂
    split_ifs at h with ho
    · obtain ⟨-,rfl⟩ := Prod.mk.inj h
      rw [if_neg (by simp [Volume.find_remove ho.1])] at h₂
      exact hyes h₂
    · exact (hno h).elim
  | unlink name =>
    simp only [machine, Machine.int21] at h h₂
    split at h
    · rename_i content hf
      split_ifs at h
      · exact (hno h).elim
      · obtain ⟨-,rfl⟩ := Prod.mk.inj h
        have hp : resolve name ≠ [] := by
          intro hp
          rw [hp] at hf
          cases hf
        rw [Volume.find_remove hp] at h₂
        exact hyes h₂
    · exact (hno h).elim
  | rename source target =>
    simp only [machine, Machine.int21] at h h₂
    split_ifs at h with ho
    · obtain ⟨-,rfl⟩ := Prod.mk.inj h
      obtain ⟨-,-,hs,-,-,-,-,hts⟩ := ho
      rw [if_neg (by simp [Volume.find_move hs hts])] at h₂
      exact hyes h₂
    · exact (hno h).elim
  | _ => exact hc.elim

theorem not_safeAgain_of_dropped (hn : g.pendingOp = .none) (hh : fileTransferHandlePacket r g = g) :
    ¬ SafeAgain resolve listing mac (g,d) r a := by
  rw [safeAgain_iff]
  rintro ⟨s',⟨-,hs⟩,-⟩
  simp only [hh] at hs
  cases ((tsrIdle_none hn).mp hs).1

/-- A path operation that is answered with the result of one such service. -/
theorem not_safeAgain_of_onceOnly (op : FileOp) {c : DosCall} {q : DosRegs} (hop : op ≠ .none)
    (hn : g.pendingOp = .none) (hh : fileTransferHandlePacket r g = { g with pendingOp := op })
    (hc : OnceOnly c) (h : machine resolve listing d c q d') (ha : a.body.status = statusOf !q.carry)
    (hex : ∀ fuel g₂ d₂, Exec (machine resolve listing) (idleOp mac fuel op) g d' [a] () g₂ d₂ →
      ∃ q₂, machine resolve listing d' c q₂ d₂ ∧ a.body.status = statusOf !q₂.carry)
    (hok : a.body.status = .ok) : ¬ SafeAgain resolve listing mac (g,d') r a := by
  rw [safeAgain_iff]
  rintro ⟨s',⟨-,hs⟩,-⟩
  simp only [hh] at hs
  obtain ⟨fuel,hs⟩ := (tsrIdle_op hop).mp hs
  rw [taken_of_none hn] at hs
  obtain ⟨q₂,h₂,hst⟩ := hex _ _ _ hs
  have hq : q.carry = false := by
    rw [hok] at ha
    by_contra hq
    simp [statusOf, hq] at ha
  rw [refused_again hc hq h h₂, hok] at hst
  cases hst

/-- A request that was answered was accepted, and its operation gave the answer. -/
theorem accepted_of_serves (h : Serves resolve listing mac (g,d) r [a] (g',d')) :
    r.Admitted g ∧ Accepted r g (fileTransferHandlePacket r g) ∧
      ∃ fuel, Exec (machine resolve listing) (idleOp mac fuel (fileTransferHandlePacket r g).pendingOp)
        (fileTransferHandlePacket r g).taken d [a] () g' d' := by
  obtain ⟨hn,hs⟩ := h
  have hp : (fileTransferHandlePacket r g).pendingOp ≠ .none := by
    intro hp
    cases ((tsrIdle_none hp).mp hs).1
  obtain he | ⟨had,hacc⟩ := handlePacket_cases r g
  · rw [he] at hp
    exact absurd hn hp
  · exact ⟨had,hacc,(tsrIdle_op hp).mp hs⟩

/-! The requests that lead back to the operation they led to, and those on paths. -/

section Kinds
variable {t : UInt32} {flags : UInt16} {path name source target : FileName}

/-- The records with a request on a path queued, and with one on two paths. -/
def pathQueued (r : Packet) (t : UInt32) (flags : UInt16) (path : FileName) (op : FileOp)
    (g : FileTransferState) : FileTransferState :=
  { rememberClient r g with
    transferId := t, pathOpFlags := flags, filename := Bytes.terminate path, pendingOp := op }

def twoPathsQueued (r : Packet) (t : UInt32) (source target : FileName) (op : FileOp)
    (g : FileTransferState) : FileTransferState :=
  { rememberClient r g with
    transferId := t, filename := Bytes.terminate source, target := Bytes.terminate target
    pendingOp := op }

/-- A download that was begun is begun again, with the file closed in between. -/
theorem getBegin_safe (hl : r.LongEnough) (hp : r.payload = .fileGetBegin t name)
    (h : Exec (machine resolve listing) (idleOp mac fuel .getBegin)
      (FileTransferState.taken { rememberClient r g with
        transferId := t, filename := Bytes.terminate name, pendingOp := .getBegin }) d [a] () g' d')
    (hok : a.body.status = .ok) : SafeAgain resolve listing mac (g',d') r a := by
  have hagain := getBegin_again h hok
  obtain ⟨_,_,_,-,-,⟨-,-,rfl,-⟩ | ⟨-,found,_,-,⟨-,-,rfl,-⟩ | ⟨-,-,rfl,-⟩⟩⟩ := exec_getBegin.mp h
  · exact safeAgain_of_exec .getBegin (by decide) rfl (by simp [fileTransferHandlePacket, hl, hp,
      getClosed, FileTransferState.taken, rememberClient]) ⟨_,_,hagain⟩
  all_goals
    rw [eq_of_sansDir (sansDir_storeDta found)] at hagain ⊢
    exact safeAgain_of_exec .getBegin (by decide) rfl (by simp [fileTransferHandlePacket, hl, hp,
      getClosed, getOpened, FileTransferState.taken, rememberClient]) ⟨_,_,hagain⟩

/-- A chunk that was read is read again: the request names its offset. -/
theorem getDataReq_safe {offset : UInt32} {count : UInt16} (hl : r.LongEnough)
    (hp : r.payload = .fileGetDataReq t offset count) (ha : g.active = true) (hm : g.mode = .get)
    (ht : t = g.transferId)
    (h : Exec (machine resolve listing) (idleOp mac fuel .getDataReq)
      (FileTransferState.taken { rememberClient r g with
        chunkOffset := offset, chunkCount := count, pendingOp := .getDataReq }) d [a] () g' d')
    (hok : a.body.status = .ok) : SafeAgain resolve listing mac (g',d') r a := by
  have hagain := getDataReq_again h hok
  obtain ⟨chunk,n,position,rfl⟩ := getDataReq_record h
  refine safeAgain_iff.mpr ⟨(_,d'),⟨rfl,?_⟩,rfl⟩
  have hh : fileTransferHandlePacket r { FileTransferState.taken { rememberClient r g with
      chunkOffset := offset, chunkCount := count, pendingOp := .getDataReq } with
        chunk := chunk, chunkCount := n, expectedOffset := position } =
    { rememberClient r g with
      chunk := chunk, chunkOffset := offset, chunkCount := count
      expectedOffset := position, pendingOp := .getDataReq } := by
    simp [fileTransferHandlePacket, hl, hp, ha, hm, ht, FileTransferState.taken, rememberClient]
  simp only [hh]
  exact (tsrIdle_op (by simp)).mpr ⟨fuel,hagain⟩

/-- A page that was listed is listed again: the search starts at the front each time. -/
theorem dirListDataReq_safe {q : UInt32} {start max : UInt16} (hl : r.LongEnough)
    (hp : r.payload = .dirListDataReq q start max) (ha : g.active = true) (hm : g.mode = .dir)
    (hq : q = g.dirRequestId)
    (h : Exec (machine resolve listing) (idleOp mac fuel .dirListDataReq)
      (FileTransferState.taken { rememberClient r g with
        dirStartIndex := start, dirMaxEntries := max, pendingOp := .dirListDataReq }) d [a] () g' d')
    (hok : a.body.status = .ok) : SafeAgain resolve listing mac (g',d') r a := by
  obtain ⟨g₂,hagain⟩ := dirList_again h hok
  obtain ⟨result,hcol,-⟩ := exec_dirListDataReq.mp h
  have hk := eq_of_sansDir (hcol.keeps collectDirEntries_keeps)
  refine safeAgain_of_exec .dirListDataReq (by decide) (by rw [hk]; rfl) ?_ ⟨_,_,hagain⟩
  rw [hk]
  simp [fileTransferHandlePacket, hl, hp, ha, hm, hq, FileTransferState.taken, rememberClient]

/-- A directory cannot be made twice. -/
theorem mkdir_once (hl : r.LongEnough) (hp : r.payload = .fileMkdir t flags path)
    (h : Exec (machine resolve listing) (idleOp mac fuel .mkdir)
      (pathQueued r t flags path .mkdir g).taken d [a] () g' d') (hok : a.body.status = .ok) :
    ¬ SafeAgain resolve listing mac (g',d') r a := by
  obtain ⟨q,hq,rfl,ha⟩ := exec_mkdir.mp h
  refine not_safeAgain_of_onceOnly .mkdir (by decide) rfl ?_
    (show OnceOnly (.mkdir _) from trivial) hq
    (congrArg (·.body.status) (List.singleton_inj.mp ha)) (fun fuel g₂ d₂ h₂ => ?_) hok
  · simp [fileTransferHandlePacket, hl, hp, pathQueued, FileTransferState.taken, rememberClient]
  · obtain ⟨q₂,hq₂,-,ha₂⟩ := exec_mkdir.mp h₂
    exact ⟨q₂,hq₂,congrArg (·.body.status) (List.singleton_inj.mp ha₂)⟩

/-- Nothing can be deleted twice. -/
theorem delete_once (hl : r.LongEnough) (hp : r.payload = .fileDelete t flags path)
    (h : Exec (machine resolve listing) (idleOp mac fuel .delete)
      (pathQueued r t flags path .delete g).taken d [a] () g' d') (hok : a.body.status = .ok) :
    ¬ SafeAgain resolve listing mac (g',d') r a := by
  obtain ⟨q,hq,rfl,ha⟩ := exec_delete.mp h
  refine not_safeAgain_of_onceOnly .delete (by decide) rfl ?_ ?_ hq
    (congrArg (·.body.status) (List.singleton_inj.mp ha)) (fun fuel g₂ d₂ h₂ => ?_) hok
  · simp [fileTransferHandlePacket, hl, hp, pathQueued, FileTransferState.taken, rememberClient]
  · unfold deleteCall
    split <;> trivial
  · obtain ⟨q₂,hq₂,-,ha₂⟩ := exec_delete.mp h₂
    exact ⟨q₂,hq₂,congrArg (·.body.status) (List.singleton_inj.mp ha₂)⟩

/-- A name can be given again only if it is the old one. -/
theorem rename_safe_iff (hl : r.LongEnough) (hp : r.payload = .fileRename t source target)
    (h : Exec (machine resolve listing) (idleOp mac fuel .rename)
      (twoPathsQueued r t source target .rename g).taken d [a] () g' d')
    (hok : a.body.status = .ok) : SafeAgain resolve listing mac (g',d') r a ↔
      dosPathEqual (nameOf source) (nameOf target) = true := by
  obtain ⟨heq,rfl,rfl,ha⟩ | ⟨hne,q,hq,rfl,ha⟩ := exec_rename.mp h
  · refine iff_of_true (safeAgain_of_exec .rename (by decide) rfl ?_ ⟨_,_,h⟩) heq
    simp [fileTransferHandlePacket, hl, hp, twoPathsQueued, FileTransferState.taken, rememberClient]
  · refine iff_of_false ?_ (Bool.eq_false_iff.mp hne)
    refine not_safeAgain_of_onceOnly .rename (by decide) rfl ?_
      (show OnceOnly (.rename _ _) from trivial) hq
      (congrArg (·.body.status) (List.singleton_inj.mp ha)) (fun fuel g₂ d₂ h₂ => ?_) hok
    · simp [fileTransferHandlePacket, hl, hp, twoPathsQueued, FileTransferState.taken,
        rememberClient]
    · obtain ⟨heq,-⟩ | ⟨-,q₂,hq₂,-,ha₂⟩ := exec_rename.mp h₂
      · exact absurd heq (by simpa using hne)
      · exact ⟨q₂,hq₂,congrArg (·.body.status) (List.singleton_inj.mp ha₂)⟩

/-- A copy can be made again, over the first one. -/
theorem copy_safe (hl : r.LongEnough) (hp : r.payload = .fileCopy t source target)
    (h : Exec (machine resolve listing) (idleOp mac fuel .copy)
      (twoPathsQueued r t source target .copy g).taken d [a] () g' d')
    (hok : a.body.status = .ok) : SafeAgain resolve listing mac (g',d') r a := by
  obtain ⟨g₂,hagain⟩ := copy_again h hok
  obtain ⟨-,-,rfl,-⟩ | ⟨-,result,g₁,hcp,rfl,-⟩ := exec_copy.mp h
  · exact safeAgain_of_exec .copy (by decide) rfl (by simp [fileTransferHandlePacket, hl, hp,
      twoPathsQueued, FileTransferState.taken, rememberClient]) ⟨_,_,hagain⟩
  · rw [eq_of_sansChunk (hcp.keeps dosCopyFile_keeps)] at hagain ⊢
    exact safeAgain_of_exec .copy (by decide) rfl (by simp [fileTransferHandlePacket, hl, hp,
      twoPathsQueued, FileTransferState.taken, rememberClient]) ⟨_,_,hagain⟩

end Kinds

/-- From every state: a request answered with success may be sent again exactly if it is of one
of the kinds listed. -/
theorem retransmit_safe_iff (hr : Retransmitted r) (h : Serves resolve listing mac s r [a] s₁)
    (hok : a.body.status = .ok) : SafeAgain resolve listing mac s₁ r a ↔ RepeatSafe r := by
  obtain ⟨g,d⟩ := s
  obtain ⟨g',d'⟩ := s₁
  obtain ⟨⟨hn,hl⟩,hacc,fuel,hex⟩ := accepted_of_serves h
  generalize fileTransferHandlePacket r g = G at hacc hex
  cases hacc with
  | putBegin t size name hp =>
    refine iff_of_true ?_ (by simp [RepeatSafe, hp])
    have hagain := putBegin_again hex hok
    obtain ⟨_,_,-,-,rfl,-⟩ := exec_putBegin.mp hex
    exact safeAgain_of_exec .putBegin (by decide) rfl
      (by simp [fileTransferHandlePacket, hl, hp, FileTransferState.taken, rememberClient])
      ⟨_,_,hagain⟩
  | reAck t offset count data hp ha hm ht ho =>
    refine iff_of_true ?_ (by simp [RepeatSafe, hp])
    obtain ⟨rfl,rfl,ha'⟩ := exec_ack.mp hex
    refine safeAgain_of_reAck rfl ?_ (List.singleton_inj.mp ha')
    simp [fileTransferHandlePacket, hl, hp, ha, hm, ackQueued, FileTransferState.taken, ho,
      rememberClient, queueAck]
  | badChunk t offset count data hp ha hm ht ho hc =>
    obtain ⟨-,-,ha'⟩ := exec_ack.mp hex
    obtain rfl := List.singleton_inj.mp ha'
    cases hok
  | putData t offset count data hp ha hm ht ho hc =>
    exact iff_of_true (putData_again hl hp ha hm ht ho hc hex hok) (by simp [RepeatSafe, hp])
  | putEnd t size hp ha hm ht hs =>
    refine iff_of_false ?_ (by simp [RepeatSafe, hp])
    obtain ⟨-,rfl,-⟩ := exec_putEnd.mp hex
    exact not_safeAgain_of_dropped rfl (by simp [fileTransferHandlePacket, hl, hp])
  | getBegin t name hp =>
    exact iff_of_true (getBegin_safe hl hp hex hok) (by simp [RepeatSafe, hp])
  | getDataReq t offset count hp ha hm ht =>
    exact iff_of_true (getDataReq_safe hl hp ha hm ht hex hok) (by simp [RepeatSafe, hp])
  | getEnd t hp ha hm ht =>
    refine iff_of_false ?_ (by simp [RepeatSafe, hp])
    obtain ⟨-,rfl,-⟩ := exec_getEnd.mp hex
    exact not_safeAgain_of_dropped rfl (by simp [fileTransferHandlePacket, hl, hp])
  | dirListBegin q path hp => simp [Retransmitted, hp] at hr
  | dirListDataReq q start max hp ha hm hq =>
    exact iff_of_true (dirListDataReq_safe hl hp ha hm hq hex hok) (by simp [RepeatSafe, hp])
  | dirListEnd q hp => simp [Retransmitted, hp] at hr
  | mkdir t flags path hp =>
    exact iff_of_false (mkdir_once hl hp hex hok) (by simp [RepeatSafe, hp])
  | delete t flags path hp =>
    exact iff_of_false (delete_once hl hp hex hok) (by simp [RepeatSafe, hp])
  | rename t source target hp =>
    have hsafe : RepeatSafe r ↔ dosPathEqual (nameOf source) (nameOf target) = true := by
      simp [RepeatSafe, hp]
    exact (rename_safe_iff hl hp hex hok).trans hsafe.symm
  | copy t source target hp =>
    exact iff_of_true (copy_safe hl hp hex hok) (by simp [RepeatSafe, hp])

/-! An upload of an empty file whose last answer is lost. -/

/-- Every name stands for itself in the root. -/
def rootPath (name : List UInt8) : Path := [name]

def noListing (_ : Volume) (_ : List UInt8) : List (Vector UInt8 43) := []

def emptyMachine : Machine := ⟨⟨[]⟩,fun _ => none,[]⟩

def putEmpty : Packet :=
  ⟨Vector.replicate 6 1,1,72,.filePutBegin 7 0 (Vector.replicate 64 0x41)⟩

def endEmpty : Packet := ⟨Vector.replicate 6 1,1,8,.filePutEnd 7 0⟩

/-- The record and DOS after `putEmpty`, and after `endEmpty`. -/
def openedEmpty : VolumeState :=
  ({ (fileTransferHandlePacket putEmpty fileTransferInit).taken with
      handle := 0, active := true, mode := .put },
    emptyMachine.created 0 [nameOf (Vector.replicate 64 0x41)])

def endedEmpty : VolumeState :=
  ({ openedEmpty.1 with handle := -1, active := false, mode := .none },openedEmpty.2.closed 0)

def emptyAck (command : FileAckCommand) : Reply :=
  ackOf (Vector.replicate 6 0) openedEmpty.1 command .ok 0

theorem putEmpty_served : Serves rootPath noListing (Vector.replicate 6 0)
    (fileTransferInit,emptyMachine) putEmpty [emptyAck .begin] openedEmpty := by
  refine ⟨rfl,(tsrIdle_op (by decide)).mpr ⟨0,?_⟩⟩
  refine exec_putBegin.mpr ⟨emptyMachine,returns 0 [],rfl,?_,rfl,rfl⟩
  exact (machine_create rfl).mpr ⟨by decide,0,by decide,rfl,rfl⟩

theorem endEmpty_served : Serves rootPath noListing (Vector.replicate 6 0)
    openedEmpty endEmpty [emptyAck .end] endedEmpty := by
  refine ⟨rfl,(tsrIdle_op (by decide)).mpr ⟨0,?_⟩⟩
  exact exec_putEnd.mpr ⟨closed_opened (by decide) (by decide),rfl,rfl⟩

/-- The first request of the upload may come again. -/
theorem putEmpty_again :
    SafeAgain rootPath noListing (Vector.replicate 6 0) openedEmpty putEmpty (emptyAck .begin) :=
  (retransmit_safe_iff (show Retransmitted putEmpty from trivial) putEmpty_served rfl).mpr trivial

/-- The last one may not: it is dropped, and the client is never answered. -/
theorem endEmpty_not_again :
    Serves rootPath noListing (Vector.replicate 6 0) (fileTransferInit,emptyMachine) putEmpty
        [emptyAck .begin] openedEmpty ∧
      Retransmitted endEmpty ∧
      Serves rootPath noListing (Vector.replicate 6 0) openedEmpty endEmpty [emptyAck .end]
        endedEmpty ∧
      (emptyAck .end).body.status = .ok ∧
      Serves rootPath noListing (Vector.replicate 6 0) endedEmpty endEmpty [] endedEmpty ∧
      ¬ SafeAgain rootPath noListing (Vector.replicate 6 0) endedEmpty endEmpty (emptyAck .end) := by
  refine ⟨putEmpty_served,trivial,endEmpty_served,rfl,⟨rfl,?_⟩,not_safeAgain_of_dropped rfl rfl⟩
  exact (tsrIdle_none rfl).mpr ⟨rfl,rfl⟩

end RmtDos
