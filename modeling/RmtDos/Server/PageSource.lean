import RmtDos.Server.Listing

/-! Where the entries of a page come from, for any behaviour of DOS: each was found by the search
that the idle step itself has begun, with the pattern for the path in the record. -/
namespace RmtDos
open Resumable Prog

/-- A search for the pattern begun in `d` has come to a state with this DTA. -/
inductive FoundBy {D : Type} (env : D → DosCall → DosRegs → D → Prop) (pattern : List UInt8)
    (d : D) : D → Vector UInt8 43 → Prop
  | first (dta : Vector UInt8 43) {r : DosRegs} {d₁ : D} (h : env d (.findFirst pattern) r d₁)
      (hc : r.carry = false) : FoundBy env pattern d d₁ (Bytes.overwrite dta r.data)
  | next {dta : Vector UInt8 43} {r : DosRegs} {d₁ d₂ : D} (hd : FoundBy env pattern d d₁ dta)
      (h : env d₁ .findNext r d₂) (hc : r.carry = false) :
      FoundBy env pattern d d₂ (Bytes.overwrite dta r.data)

/-- Each of the DTAs was found by the search that a listing begins in the DOS state, behind the
switch to its own DTA. -/
def AllFound {D : Type} (env : D → DosCall → DosRegs → D → Prop) (pattern : List UInt8) (before : D)
    (l : List (Vector UInt8 43)) : Prop :=
  ∃ saved d₁ r d, env before .getDta saved d₁ ∧ env d₁ .setDta r d ∧
    ∀ dta ∈ l, ∃ d₂, FoundBy env pattern d d₂ dta

variable {D : Type} {env : D → DosCall → DosRegs → D → Prop} {mac : MacAddr} {fuel : ℕ}
  {g g' : FileTransferState} {d d₀ d' : D} {os : List Reply} {pattern : List UInt8}

theorem storeDta_dta {r : DosRegs} (hc : r.carry = false) :
    (storeDta r g).dta = Bytes.overwrite g.dta r.data := by
  rw [storeDta, hc]
  rfl

theorem storeDta_dirEntries (r : DosRegs) : (storeDta r g).dirEntries = g.dirEntries := by
  rw [storeDta]
  split
  · rfl
  · rfl

/-- The page after one entry is the page before it, with what the DTA holds or as it was. -/
theorem pageNext_appends {m seen count : UInt16} (hm : m.toNat ≤ 16) (hc : count.toNat ≤ m.toNat) :
    (pageNext m seen count g).2.toNat ≤ m.toNat ∧ ∃ l : List (Vector UInt8 43), (∀ dta ∈ l, dta = g.dta) ∧
      (pageNext m seen count g).1.dirEntries.toList.take (pageNext m seen count g).2.toNat =
        g.dirEntries.toList.take count.toNat ++ l.map dtaEntry := by
  by_cases hs : g.dirStartIndex ≤ seen ∧ count < m
  · obtain ⟨hn,he⟩ := pageNext_stores hm hs.2 hs.1
    have hlt := UInt16.lt_iff_toNat_lt.mp hs.2
    rw [hn, he]
    exact ⟨hlt,[g.dta],by simp,by simp⟩
  · rw [pageNext, if_neg hs]
    exact ⟨hc,[],by simp,by simp⟩

/-- The loop appends entries that the search has found. -/
theorem collectLoop_found {m seen count n : UInt16} (hm : m.toNat ≤ 16) (hc : count.toNat ≤ m.toNat)
    (hd : FoundBy env pattern d₀ d g.dta)
    (h : Exec env (collectLoop m fuel seen count) g d os n g' d') :
    n.toNat ≤ m.toNat ∧ ∃ l : List (Vector UInt8 43), (∀ dta ∈ l, ∃ d₁, FoundBy env pattern d₀ d₁ dta) ∧
      g'.dirEntries.toList.take n.toNat =
        g.dirEntries.toList.take count.toNat ++ l.map dtaEntry := by
  induction fuel generalizing seen count g d os with
  | zero => exact h.elim
  | succ fuel ih =>
    obtain ⟨hle,l,hl,hpage⟩ := @pageNext_appends g m seen count hm hc
    have hfound : ∀ dta ∈ l, ∃ d₁, FoundBy env pattern d₀ d₁ dta := by
      intro dta hmem
      rw [hl dta hmem]
      exact ⟨d,hd⟩
    obtain ⟨-,q,d₁,hq,⟨hcarry,h⟩ | ⟨-,-,rfl,rfl,-⟩⟩ | ⟨-,-,rfl,rfl,-⟩ := exec_collectLoop_succ.mp h
    · have hnext : FoundBy env pattern d₀ d₁ (storeDta q (pageNext m seen count g).1).dta := by
        rw [storeDta_dta hcarry, pageNext_dta]
        exact .next hd hq hcarry
      obtain ⟨hn,l',hl',hentries⟩ := ih hle hnext h
      rw [storeDta_dirEntries, hpage] at hentries
      refine ⟨hn,l ++ l',fun dta hmem => ?_,?_⟩
      · exact (List.mem_append.mp hmem).elim (hfound dta) (hl' dta)
      · rw [hentries, List.map_append, List.append_assoc]
    · rw [storeDta_dirEntries]
      exact ⟨hle,l,hfound,hpage⟩
    · exact ⟨hle,l,hfound,hpage⟩

theorem pageLimit_le (g : FileTransferState) : (pageLimit g).toNat ≤ 16 := by
  rw [pageLimit]
  split
  next => exact le_rfl
  next h => exact UInt16.le_iff_toNat_le.mp (UInt16.not_lt.mp h)

/-- A page is an error, or it holds what the search for the path of the record has found. -/
theorem idle_found (h : Exec env (idleOp mac fuel .dirListDataReq) g d os () g' d') :
    os = [pageOf mac g' .error 0] ∨ ∃ pattern l,
      buildDirPattern 133 (dirPathStr g) = some pattern ∧ AllFound env pattern d l ∧ l.length ≤ 16 ∧
      os = [pageReply mac g (l.map dtaEntry)] := by
  obtain ⟨result,hx,rfl⟩ := exec_dirListDataReq.mp h
  have hkeep := hx.keeps collectDirEntries_keeps
  obtain ⟨-,⟨-,rfl,-,-⟩ | ⟨pattern,count,saved,d₁,r₁,d₂,d₃,r₃,hp,hget,hset,⟨found,d₄,hf,hcol⟩,-,rfl⟩⟩ :=
    exec_collectDirEntries.mp hx
  · exact .inl rfl
  · have hreply (l : List (Vector UInt8 43)) (hl : l.length = count.toNat)
        (hentries : g'.dirEntries.toList.take count.toNat = l.map dtaEntry) :
        pageOf mac g' .ok count = pageReply mac g (l.map dtaEntry) := by
      have hcount : UInt16.ofNat (l.map dtaEntry).length = count := by
        rw [List.length_map, hl, UInt16.ofNat_toNat]
      rw [pageReply, hcount, ← hentries, pageOf, if_pos rfl, if_pos rfl, eq_of_sansDir hkeep]
    refine .inr ⟨pattern,?_⟩
    split_ifs at hcol with hcarry
    · obtain ⟨rfl,-,-⟩ := hcol
      have hempty := hreply [] rfl rfl
      exact ⟨[],hp,⟨saved,d₁,r₁,d₂,hget,hset,by simp⟩,Nat.zero_le _,by rw [hempty]⟩
    · have hnone : found.carry = false := by simpa using hcarry
      have hstart : FoundBy env pattern d₂ d₄ (storeDta found g).dta := by
        rw [storeDta_dta hnone]
        exact .first g.dta hf hnone
      obtain ⟨hle,l,hl,hentries⟩ :=
        collectLoop_found (pageLimit_le g) (Nat.zero_le _) hstart hcol
      have hzero : UInt16.toNat 0 = 0 := rfl
      rw [hzero, List.take_zero, List.nil_append] at hentries
      have hle16 := hle.trans (pageLimit_le g)
      have hlen : l.length = count.toNat := by
        have heq := congrArg List.length hentries
        rw [List.length_take, Vector.length_toList, List.length_map, Nat.min_eq_left hle16] at heq
        exact heq.symm
      rw [hreply l hlen hentries]
      exact ⟨l,hp,⟨saved,d₁,r₁,d₂,hget,hset,hl⟩,hlen.trans_le hle16,rfl⟩

end RmtDos
