import RmtDos.Server.Retransmit

/-! One page of a directory listing. The search starts over for every page, skips the entries
before the page and stops when the page is full. -/
namespace RmtDos
open Resumable Prog Dos

/-- The entries of the page that starts at `start`. DOS ends a name within its 13 bytes. -/
def pageEntries (start limit : ℕ) (l : List (Vector UInt8 43)) : List DirListEntry :=
  ((l.drop start).take limit).map dtaEntry

variable {resolve : List UInt8 → Path} {listing : Volume → List UInt8 → List (Vector UInt8 43)}
  {mac : MacAddr} {g g' : FileTransferState} {d d' : Machine} {fuel : ℕ}

theorem storeDta_entry (e : Vector UInt8 43) (l : List (Vector UInt8 43)) :
    storeDta (entryFound (e :: l)) g = { g with dta := e } := by
  simp [storeDta, entryFound, returns, Bytes.overwrite_toList]

/-- The page with the entry that the search has found. -/
theorem pageNext_stores {m seen count : UInt16} (hm : m.toNat ≤ 16) (hc : count < m)
    (hs : g.dirStartIndex ≤ seen) :
    (pageNext m seen count g).2.toNat = count.toNat+1 ∧
      (pageNext m seen count g).1.dirEntries.toList.take (count.toNat+1) =
        g.dirEntries.toList.take count.toNat ++ [dtaEntry g.dta] := by
  rw [UInt16.lt_iff_toNat_lt] at hc
  have hcount : (count+1).toNat = count.toNat+1 := by
    have h1 : UInt16.toNat 1 = 1 := rfl
    rw [UInt16.toNat_add, h1]
    omega
  have hin : count.toNat < 16 := by omega
  rw [pageNext, if_pos ⟨hs,hc⟩]
  refine ⟨hcount,?_⟩
  rw [Vector.toList_setIfInBounds, List.take_add_one, List.take_set_of_le le_rfl]
  simp [hin]

/-- The entry in the DTA and the ones behind it. -/
theorem pageEntries_cons {start seen limit : ℕ} (h : seen-start < limit)
    (e : Vector UInt8 43) (l : List (Vector UInt8 43)) :
    pageEntries (start-seen) (limit-(seen-start)) (e :: l) =
      (if start ≤ seen then [dtaEntry e] else []) ++
        pageEntries (start-(seen+1)) (limit-(seen+1-start)) l := by
  unfold pageEntries
  split
  next hs =>
    have h₁ : start-seen = 0 := by omega
    have h₂ : start-(seen+1) = 0 := by omega
    have h₃ : limit-(seen-start) = limit-(seen+1-start)+1 := by omega
    rw [h₁, h₂, h₃]
    rfl
  next hs =>
    have h₁ : start-seen = start-(seen+1)+1 := by omega
    have h₂ : limit-(seen-start) = limit-(seen+1-start) := by omega
    rw [h₁, h₂]
    rfl

/-- The loop has seen `seen` entries and put those of the page into the record. -/
structure PageSoFar (m seen count : UInt16) (acc : List DirListEntry) (g : FileTransferState) :
    Prop where
  room : count < m
  skipped : count.toNat = seen.toNat-g.dirStartIndex.toNat
  entries : g.dirEntries.toList.take count.toNat = acc
  noWrap : g.dirStartIndex.toNat+16 < 65536

theorem PageSoFar.next {m seen count : UInt16} {acc : List DirListEntry} (hm : m.toNat ≤ 16)
    (h : PageSoFar m seen count acc g) :
    (pageNext m seen count g).2.toNat = (seen+1).toNat-g.dirStartIndex.toNat ∧
      (seen+1).toNat = seen.toNat+1 ∧
      (pageNext m seen count g).1.dirEntries.toList.take (pageNext m seen count g).2.toNat = acc ++
        if g.dirStartIndex.toNat ≤ seen.toNat then [dtaEntry g.dta] else [] := by
  have hroom := h.room
  have hskipped := h.skipped
  have hwrap := h.noWrap
  rw [UInt16.lt_iff_toNat_lt] at hroom
  have hseen : (seen+1).toNat = seen.toNat+1 := by
    have h1 : UInt16.toNat 1 = 1 := rfl
    rw [UInt16.toNat_add, h1]
    omega
  rw [hseen]
  by_cases hs : g.dirStartIndex ≤ seen
  · obtain ⟨hc,he⟩ := pageNext_stores hm h.room hs
    rw [UInt16.le_iff_toNat_le] at hs
    rw [hc, he, h.entries, if_pos hs]
    exact ⟨by omega,rfl,rfl⟩
  · rw [pageNext, if_neg fun hc => hs hc.1]
    rw [UInt16.le_iff_toNat_le] at hs
    rw [if_neg hs, List.append_nil]
    exact ⟨by simp only; omega,rfl,h.entries⟩

@[simp] theorem pageNext_dta (m seen count : UInt16) : (pageNext m seen count g).1.dta = g.dta := by
  unfold pageNext
  split <;> rfl

@[simp] theorem pageNext_start (m seen count : UInt16) :
    (pageNext m seen count g).1.dirStartIndex = g.dirStartIndex := by
  unfold pageNext
  split <;> rfl

theorem pageEntries_full (start : ℕ) (l : List (Vector UInt8 43)) : pageEntries start 0 l = [] := by
  simp [pageEntries]

theorem pageEntries_nil (start limit : ℕ) : pageEntries start limit [] = [] := by
  simp [pageEntries]

/-- From the entry in the DTA on, the loop appends what the page has room for. -/
theorem collectLoop_page {m seen count : UInt16} (hm : m.toNat ≤ 16) (l : List (Vector UInt8 43))
    {acc : List DirListEntry} (h : PageSoFar m seen count acc g) (hd : d.search = l)
    (hfuel : l.length < fuel) :
    ∃ n g' d', Exec (machine resolve listing) (collectLoop m fuel seen count) g d [] n g' d' ∧
      g'.dirEntries.toList.take n.toNat = acc ++
        pageEntries (g.dirStartIndex.toNat-seen.toNat) (m.toNat-count.toNat) (g.dta :: l) ∧
      n.toNat ≤ m.toNat ∧ d'.volume = d.volume := by
  induction fuel generalizing l seen count g d acc with
  | zero => exact absurd hfuel (Nat.not_lt_zero _)
  | succ fuel ih =>
    obtain ⟨hcount,hseen,hentries⟩ := h.next hm
    have hroom := UInt16.lt_iff_toNat_lt.mp h.room
    rw [h.skipped, pageEntries_cons (h.skipped ▸ hroom), ← List.append_assoc, ← hentries, ← hseen,
      ← hcount]
    by_cases hmore : (pageNext m seen count g).2 < m
    · have hlt := UInt16.lt_iff_toNat_lt.mp hmore
      cases l with
      | nil =>
        refine ⟨_,_,_,exec_collectLoop_succ.mpr (.inl ⟨hmore,_,_,machine_findNext.mpr ⟨rfl,rfl⟩,
          .inr ⟨by rw [hd]; rfl,rfl,rfl,rfl,rfl⟩⟩),?_,hlt.le,rfl⟩
        rw [hd, pageEntries_nil, List.append_nil]
        rfl
      | cons e l =>
        have hnext : PageSoFar m (seen+1) (pageNext m seen count g).2
            ((pageNext m seen count g).1.dirEntries.toList.take (pageNext m seen count g).2.toNat)
            (storeDta (entryFound d.search) (pageNext m seen count g).1) := by
          rw [hd, storeDta_entry]
          exact ⟨hmore,by simpa using hcount,rfl,by simpa using h.noWrap⟩
        obtain ⟨n,g',d',hexec,hpage,hn,hv⟩ := @ih _ { d with search := d.search.tail } _ _ l _ hnext
          (by rw [hd]; rfl) (Nat.lt_of_succ_lt_succ hfuel)
        refine ⟨n,g',d',exec_collectLoop_succ.mpr (.inl ⟨hmore,_,_,machine_findNext.mpr ⟨rfl,rfl⟩,
          .inl ⟨by rw [hd]; rfl,hexec⟩⟩),?_,hn,hv⟩
        rw [hd, storeDta_entry] at hpage
        simpa using hpage
    · have hfull : m.toNat-(pageNext m seen count g).2.toNat = 0 := by
        rw [UInt16.lt_iff_toNat_lt] at hmore
        omega
      refine ⟨_,_,_,exec_collectLoop_succ.mpr (.inr ⟨hmore,rfl,rfl,rfl,rfl⟩),?_,?_,rfl⟩
      · rw [hfull, pageEntries_full, List.append_nil]
      · have hskipped := h.skipped
        omega

/-- The record of a request for the page at `index` that the pattern finds. -/
structure PageAsked (g : FileTransferState) (pattern : List UInt8) (index : ℕ) : Prop where
  limit : g.dirMaxEntries = 16
  start : g.dirStartIndex.toNat = index
  found : buildDirPattern 133 (dirPathStr g) = some pattern
  noWrap : index+16 < 65536

/-- The page that answers it. -/
def pageReply (mac : MacAddr) (g : FileTransferState) (entries : List DirListEntry) : Reply :=
  ⟨g.clientMac,mac,g.sessionId,10+UInt16.ofNat entries.length*74,
    .dirListData g.dirRequestId g.dirStartIndex (UInt16.ofNat entries.length) .ok entries⟩

variable {pattern : List UInt8} {index : ℕ}

/-- The search of a listing collects the entries of the page. -/
theorem collected_page (h : PageAsked g pattern index) :
    ∃ fuel count g' d', Collected (machine resolve listing) fuel pattern g d count g' d' ∧
      g'.dirEntries.toList.take count.toNat =
        pageEntries index 16 (listing d.volume pattern) ∧
      count.toNat ≤ 16 ∧ d'.volume = d.volume := by
  have hlimit : pageLimit g = 16 := by
    rw [pageLimit, h.limit]
    rfl
  cases hl : listing d.volume pattern with
  | nil =>
    refine ⟨0,0,g,{ d with search := (listing d.volume pattern).tail },
      ⟨_,_,machine_findFirst.mpr ⟨rfl,rfl⟩,?_⟩,?_,Nat.zero_le 16,rfl⟩
    · simp [hl, entryFound, refused]
    · rw [pageEntries_nil]
      rfl
  | cons e l =>
    have hsofar : PageSoFar 16 0 0 [] { g with dta := e } :=
      ⟨by decide,(Nat.zero_sub _).symm,rfl,h.start ▸ h.noWrap⟩
    obtain ⟨n,g',d',hexec,hpage,hn,hv⟩ := @collectLoop_page resolve listing _
      { d with search := l } (l.length+1) 16 0 0 (by decide) l _ hsofar rfl (Nat.lt_succ_self _)
    refine ⟨l.length+1,n,g',d',⟨_,_,machine_findFirst.mpr ⟨rfl,rfl⟩,?_⟩,?_,hn,hv⟩
    · rw [hl, storeDta_entry, hlimit]
      exact hexec
    · rw [hpage, ← h.start]
      rfl

/-- The idle step answers with the page and leaves the files alone. -/
theorem idle_page (hp : g.pendingOp = .dirListDataReq) (h : PageAsked g pattern index) :
    ∃ g' d', TsrStep (machine resolve listing) mac (g,d) (.idle
        [pageReply mac g (pageEntries index 16 (listing d.volume pattern))]) (g',d') ∧
      sansDir g' = sansDir g.taken ∧ d'.volume = d.volume := by
  have htaken : PageAsked g.taken pattern index := ⟨h.limit,h.start,h.found,h.noWrap⟩
  obtain ⟨fuel,count,g',d',hcol,hpage,hcount,hv⟩ := @collected_page resolve listing _ d _ _ htaken
  have hexec : Exec (machine resolve listing) (collectDirEntries fuel) g.taken d [] (.ok,count) g'
      d' :=
    exec_collectDirEntries.mpr ⟨rfl,.inr ⟨pattern,count,_,d,_,d,d',_,htaken.found,
      (machine_dta (.inr (.inl rfl))).mpr ⟨rfl,rfl⟩,(machine_dta (.inl rfl)).mpr ⟨rfl,rfl⟩,hcol,
      (machine_dta (.inr (.inr ⟨_,_,rfl⟩))).mpr ⟨rfl,rfl⟩,rfl⟩⟩
  have hkeep : sansDir g' = sansDir g.taken := hexec.keeps collectDirEntries_keeps
  refine ⟨g',d',(tsrIdle_op (by rw [hp]; decide)).mpr ⟨fuel,?_⟩,hkeep,hv⟩
  rw [hp]
  refine exec_dirListDataReq.mpr ⟨(.ok,count),hexec,?_⟩
  have hlen : UInt16.ofNat (pageEntries index 16 (listing d.volume pattern)).length = count := by
    rw [← hpage, List.length_take, Vector.length_toList, Nat.min_eq_left hcount,
      UInt16.ofNat_toNat]
  rw [pageReply, hlen, pageOf, if_pos rfl, if_pos rfl, hpage, eq_of_sansDir hkeep]
  rfl

end RmtDos
