/-
A low-space round of the monitor over all cameras (the loop of `MonitorProc`).

`cleanRound` is the round in which every call succeeds, as a fold over the cameras; `next_cleanRound` says that it is
what the single calls of `Monitor` come to.

- `cleanCameras_removes`: with distinct cameras a round takes one oldest recording of every camera that has one, the row
  and the file, and nothing else (`RemovesOldest`).
- `removesOldest_self_iff`: doing nothing amounts to that only if no camera has a recording.
-/
import StoreService.Store.Monitor

namespace StoreService.Store

open StoreService.Runs StoreService.FileSys

/-! ## The round -/

namespace Archive

/-- the body of the loop -/
def cleanCamera (site : Site) (s : Archive) (id : String) : Archive :=
  match getFirstStoreInfo (s.tables id) with
  | none => s
  | some r =>
    { s.setTable id (deleteInfo (s.tables id) r.fileName) with
      files := unlink s.files (site.unlinkPath id r.fileName) }

def cleanCameras (site : Site) (s : Archive) (ids : List String) : Archive := ids.foldl (cleanCamera site) s

theorem cleanCameras_cons (site : Site) (s : Archive) (id : String) (ids : List String) :
    s.cleanCameras site (id :: ids) = (s.cleanCamera site id).cleanCameras site ids := rfl

def cleanRound (site : Site) (s : Archive) : Archive := s.cleanCameras site site.cameraInfoList

/-- the calls from camera `i` on -/
theorem next_cleanCameras {site : Site} {ids : List String} : ∀ {i : ℕ} {s : Archive},
    site.cameraInfoList.drop i = ids →
    ∃ k, run (Archive.step site) { s with pc := .camera i } (List.replicate k (.next true)) =
      some { s.cleanCameras site ids with pc := .asleep } := by
  induction ids with
  | nil =>
    intro i s hdrop
    have hend : site.cameraInfoList[i]? = none := List.getElem?_eq_none_iff.2 (List.drop_eq_nil_iff.1 hdrop)
    exact ⟨1, by simp [run, Archive.step, Archive.next, hend, cleanCameras]⟩
  | cons id ids ih =>
    intro i s hdrop
    have hid : site.cameraInfoList[i]? = some id := by rw [← List.head?_drop, hdrop, List.head?_cons]
    have hrest : site.cameraInfoList.drop (i + 1) = ids := by rw [← List.tail_drop, hdrop, List.tail_cons]
    obtain ⟨k, hk⟩ := ih (s := s.cleanCamera site id) hrest
    unfold cleanCamera at hk
    cases hr : getFirstStoreInfo (s.tables id) with
    | none =>
      -- the fetch finds nothing and the loop goes on
      rw [hr] at hk
      refine ⟨k + 1, run_cons_some (by simp only [Archive.step, Archive.next, hid, if_true, hr]) (hk.trans ?_)⟩
      simp [cleanCameras, cleanCamera, hr]
    | some r =>
      rw [hr] at hk
      refine ⟨k + 3, run_cons_some (by simp only [Archive.step, Archive.next, hid, if_true, hr]; rfl) ?_⟩
      refine run_cons_some (by simp only [Archive.step, Archive.next, if_true]; rfl) ?_
      refine run_cons_some (by simp only [Archive.step, Archive.next, if_true]; rfl) (hk.trans ?_)
      simp [cleanCameras, cleanCamera, hr]

/-- **The calls of a round.** -/
theorem next_cleanRound (site : Site) {s : Archive} (hpc : s.pc = .camera 0) :
    ∃ k, run (Archive.step site) s (List.replicate k (.next true)) = some { s.cleanRound site with pc := .asleep } := by
  obtain ⟨k, hk⟩ := next_cleanCameras (s := s) (List.drop_zero (l := site.cameraInfoList))
  exact ⟨k, by rwa [← hpc] at hk⟩

end Archive

/-! ## What a round removes -/

/-- a recording with the smallest name -/
def Oldest (rows : List Recording) (r : Recording) : Prop := r ∈ rows ∧ ∀ q ∈ rows, ¬ q.fileName < r.fileName

/-- the oldest recording of every camera that has one is gone, with its file, and nothing else -/
structure RemovesOldest (site : Site) (ids : List String) (s t : Archive) : Prop where
  removed : ∀ id ∈ ids, s.tables id ≠ [] → ∃ l₁ r l₂, Oldest (s.tables id) r ∧ s.tables id = l₁ ++ r :: l₂ ∧
    t.tables id = l₁ ++ l₂ ∧ t.files (site.unlinkPath id r.fileName) = none
  tables : ∀ id, id ∉ ids ∨ s.tables id = [] → t.tables id = s.tables id
  files : ∀ path, (∀ id ∈ ids, ∀ r, Oldest (s.tables id) r → site.unlinkPath id r.fileName ≠ path) →
    t.files path = s.files path

theorem getFirstStoreInfo_none {rows : List Recording} (h : getFirstStoreInfo rows = none) : rows = [] := by
  have hname := getFirstStoreInfo_fileName rows
  rw [h, Option.map_none] at hname
  exact List.map_eq_nil_iff.1 (firstName_none hname.symm)

theorem getFirstStoreInfo_oldest {rows : List Recording} {r : Recording} (h : getFirstStoreInfo rows = some r) :
    Oldest rows r := by
  have hname := getFirstStoreInfo_fileName rows
  rw [h, Option.map_some] at hname
  obtain ⟨n, -, hfind⟩ := Option.bind_eq_some_iff.1 h
  exact ⟨List.mem_of_find?_eq_some hfind, fun q hq => firstName_le hname.symm _ (List.mem_map_of_mem hq)⟩

/-- the row deleted is the row fetched -/
theorem deleteInfo_first {rows : List Recording} {r : Recording} (h : getFirstStoreInfo rows = some r) :
    ∃ l₁ l₂, rows = l₁ ++ r :: l₂ ∧ deleteInfo rows r.fileName = l₁ ++ l₂ := by
  obtain ⟨n, -, hfind⟩ := Option.bind_eq_some_iff.1 h
  obtain ⟨hn, l₁, l₂, rfl, hl₁⟩ := List.find?_eq_some_iff_append.1 hfind
  obtain rfl : r.fileName = n := by simpa using hn
  refine ⟨l₁, l₂, rfl, ?_⟩
  rw [deleteInfo, List.eraseP_append_right _ (by simpa using hl₁), List.eraseP_cons_of_pos (by simp)]

section Clean

variable {site : Site} {s : Archive} {id : String}

theorem cleanCamera_tables_ne {id' : String} (h : id' ≠ id) : (s.cleanCamera site id).tables id' = s.tables id' := by
  unfold Archive.cleanCamera
  split
  · rfl
  · exact Function.update_of_ne h _ _

theorem cleanCamera_nil (h : s.tables id = []) : s.cleanCamera site id = s := by
  simp [Archive.cleanCamera, h, getFirstStoreInfo, firstName]

theorem cleanCamera_files_ne {path : List (List Char)}
    (h : ∀ r, Oldest (s.tables id) r → site.unlinkPath id r.fileName ≠ path) :
    (s.cleanCamera site id).files path = s.files path := by
  unfold Archive.cleanCamera
  split
  · rfl
  · rename_i r hr
    exact Function.update_of_ne (h r (getFirstStoreInfo_oldest hr)).symm _ _

theorem cleanCamera_files_none {path : List (List Char)} (h : s.files path = none) :
    (s.cleanCamera site id).files path = none := by
  unfold Archive.cleanCamera
  split
  · exact h
  · simp only [unlink, Function.update_apply]
    split_ifs
    · rfl
    · exact h

theorem cleanCameras_files_none {path : List (List Char)} {ids : List String} (h : s.files path = none) :
    (s.cleanCameras site ids).files path = none := by
  induction ids generalizing s with
  | nil => exact h
  | cons id ids ih => exact ih (cleanCamera_files_none h)

/-- **What a round removes.** -/
theorem cleanCameras_removes {ids : List String} (h : ids.Nodup) :
    RemovesOldest site ids s (s.cleanCameras site ids) := by
  induction ids generalizing s with
  | nil => exact ⟨nofun, fun _ _ => rfl, fun _ _ => rfl⟩
  | cons id ids ih =>
    -- the later cameras are other ones: they find their tables as they were, and leave this one's alone
    obtain ⟨hid, hids⟩ := List.nodup_cons.1 h
    have hrest := ih (s := s.cleanCamera site id) hids
    have hother : ∀ id' ∈ ids, (s.cleanCamera site id).tables id' = s.tables id' := fun id' hid' =>
      cleanCamera_tables_ne fun he => hid (he ▸ hid')
    refine ⟨fun id' hid' hne => ?_, fun id' hid' => ?_, fun path hpath => ?_⟩
    · rcases List.mem_cons.1 hid' with rfl | hid'
      · cases hr : getFirstStoreInfo (s.tables id') with
        | none => exact absurd (getFirstStoreInfo_none hr) hne
        | some r =>
          obtain ⟨l₁, l₂, hrows, hdel⟩ := deleteInfo_first hr
          rw [Archive.cleanCameras_cons]
          refine ⟨l₁, r, l₂, getFirstStoreInfo_oldest hr, hrows, ?_, cleanCameras_files_none ?_⟩
          · refine (hrest.tables id' (.inl hid)).trans ?_
            simp [Archive.cleanCamera, hr, Archive.setTable, hdel]
          · simp [Archive.cleanCamera, hr, unlink]
      · obtain ⟨l₁, r, l₂, hold, hrows, htable, hfile⟩ := hrest.removed id' hid' (by rwa [hother id' hid'])
        rw [hother id' hid'] at hold hrows
        exact ⟨l₁, r, l₂, hold, hrows, htable, hfile⟩
    · have htail : id' ∉ ids ∨ (s.cleanCamera site id).tables id' = [] := by
        by_cases hmem : id' ∈ ids
        · right
          rw [hother id' hmem]
          exact hid'.resolve_left (not_not_intro (List.mem_cons_of_mem id hmem))
        · exact .inl hmem
      refine (hrest.tables id' htail).trans ?_
      by_cases he : id' = id
      · subst he
        rw [cleanCamera_nil (hid'.resolve_left (not_not_intro List.mem_cons_self))]
      · exact cleanCamera_tables_ne he
    · refine (hrest.files path fun id' hid' r hr => ?_).trans (cleanCamera_files_ne fun r hr => ?_)
      · rw [hother id' hid'] at hr
        exact hpath id' (List.mem_cons_of_mem id hid') r hr
      · exact hpath id List.mem_cons_self r hr

theorem cleanCameras_nil {ids : List String} (h : ∀ id ∈ ids, s.tables id = []) : s.cleanCameras site ids = s := by
  induction ids with
  | nil => rfl
  | cons id ids ih =>
    rw [Archive.cleanCameras_cons, cleanCamera_nil (h id List.mem_cons_self)]
    exact ih fun id' hid' => h id' (List.mem_cons_of_mem id hid')

theorem removesOldest_self_iff {ids : List String} : RemovesOldest site ids s s ↔ ∀ id ∈ ids, s.tables id = [] := by
  constructor
  · intro h id hid
    by_contra hne
    obtain ⟨l₁, r, l₂, -, hrows, hsame, -⟩ := h.removed id hid hne
    have hlen := congrArg List.length (hrows.symm.trans hsame)
    simp at hlen
  · intro h
    exact ⟨fun id hid hne => absurd (h id hid) hne, fun _ _ => rfl, fun _ _ => rfl⟩

/-- a round changes nothing only if no camera has a recording -/
theorem cleanRound_eq_self_iff (h : site.cameraInfoList.Nodup) :
    s.cleanRound site = s ↔ ∀ id ∈ site.cameraInfoList, s.tables id = [] := by
  constructor
  · intro hsame
    have hremoves : RemovesOldest site site.cameraInfoList s (s.cleanRound site) := cleanCameras_removes h
    rw [hsame] at hremoves
    exact removesOldest_self_iff.1 hremoves
  · exact cleanCameras_nil

end Clean

end StoreService.Store
