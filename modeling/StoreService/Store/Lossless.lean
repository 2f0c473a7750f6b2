/-
A recording as a whole: from the calls of the stream's thread to the files.

What the recorder is for: every frame that is recorded stands in one file, and the files one after the other are the
recording. Here this is a refinement. The concrete machine is `Recorder`, the abstract one a log of frames with their
times.

- `recording_lossless`: in every run that meets `RecordingOk` no call faults, and at each point the frames in the files
  of the directory, those in the slot and those in the current buffer, read back in this order, are the frames of the
  calls with flag 0 made so far, each once; and if the name is free the writer alone brings those in the slot to a file.

A frame that comes with a stop is not part of the log: the source jumps over the store when it does not fit.

Premises (`RecordingOk`): a rotation finds the slot empty, the frames meet `StreamOk`, a stop comes with a frame that
does not fit, a removal finds no old record under the last one, the second in which a buffer was started names no file
written before, and `open` and `write` succeed. Each is a real one: without the first a buffer is never written
(`slot_overwritten`), a stop whose frame fits clears the record it has just made (`stop_clears_record`), with an old
record its frames are written again (`removal_repeats`), a name that is taken costs the older file its frames
(`same_second`), and the writer drops a buffer whose file it cannot open or write (`openFails`, `writeFails`).
-/
import StoreService.Store.FileRead
import StoreService.Store.Recorder

namespace StoreService.Store

open StoreService.ByteMem StoreService.KeyFrame StoreService.Runs StoreService.FileSys

/-! ## Frames and files -/

/-- a file has the size of a buffer and is read back as these frames, by a reader with room for each of them -/
structure Reads (file : List UInt8) (fs : List (List UInt8 × ℕ)) : Prop where
  length : file.length = storeBufMaxSize
  frames : ∀ outSize, (∀ f ∈ fs, f.1.length ≤ outSize) → decode (fileMem file) outSize = some fs

/-- where the frames of a recording are -/
structure Account (s : Recorder) (stored : List (List (List UInt8 × ℕ))) (waiting current : List (List UInt8 × ℕ)) :
    Prop where
  files : List.Forall₂ (fun path fs => ∃ file, s.disk path = some file ∧ Reads file fs) s.closed stored
  distinct : s.closed.Nodup
  slot : ∀ i, s.sys.dev.pStoreBufWr = some i → Reads (s.sys.dev.buf i).image waiting
  free : s.sys.dev.pStoreBufWr = none → waiting = []
  buffer : s.phase = .recording → ∃ L, Holds s.sys.dev.cur L ∧ current = L.map Entry.read
  flushed : s.phase ≠ .recording → current = []

/-- **What a recorder is for**: the frames in the files, in the slot and in the current buffer, in this order, are the
log, and if its name is new the writer alone brings what is in the slot to a file -/
structure Lossless (cfg : Config) (s : Recorder) (log : List (List UInt8 × ℕ)) : Prop where
  accounted : ∃ stored waiting current, Account s stored waiting current ∧
    stored.flatten ++ waiting ++ current = log
  drains : NewFile cfg s → ∃ (ws : List Act) (t : Recorder) (stored : List (List (List UInt8 × ℕ)))
    (current : List (List UInt8 × ℕ)), (∀ a ∈ ws, Act.isWriter a = true) ∧
      run (Recorder.step cfg) s (ws.map RecordOp.act) = some t ∧ t.sys.dev.pStoreBufWr = none ∧
      Account t stored [] current ∧ stored.flatten ++ current = log

/-! ## Images -/

/-- an image only depends on the bytes of the buffer -/
theorem Image.congr {m m' : Mem} {F : List Entry} (h : Image m F) (hs : SameOn m' m 0 storeBufMaxSize) :
    Image m' F := by
  have hroom := h.room
  have hslot : slotPos F.length + 96 * (F.length + 1) = storeBufMaxSize := slotPos_add (by omega)
  refine ⟨h.indexed.congr (by omega) (hs.mono le_rfl (by omega)) (hs.mono (Nat.zero_le _) (by omega)), hroom, ?_⟩
  have hhead : (readInfo m' (slotPos F.length)).head = (readInfo m (slotPos F.length)).head :=
    readLE_sameOn (hs.mono (Nat.zero_le _) (by omega))
  rw [hhead]
  exact h.stop

theorem fileMem_sameOn (m : Mem) (n : ℕ) : SameOn (fileMem (slice m 0 n)) m 0 n := by
  intro i _ hi
  rw [zero_add] at hi
  have hget : (slice m 0 n)[i]? = some (m i) := by simp [slice, hi]
  rw [fileMem, List.getD_eq_getElem?_getD, hget, Option.getD_some]

theorem Image.reads {m : Mem} {F : List Entry} (h : Image m F) :
    Reads (slice m 0 storeBufMaxSize) (F.map Entry.read) := by
  refine ⟨length_slice _ _ _, fun outSize hout => (h.congr (fileMem_sameOn m _)).decode fun e he => ?_⟩
  exact hout e.read (List.mem_map_of_mem he)

/-- the images sealed so far are images of the frames `Fs` -/
def Sealed (images : List (List UInt8)) (Fs : List (List Entry)) : Prop :=
  List.Forall₂ (fun image F => ∃ m, image = slice m 0 storeBufMaxSize ∧ Image m F) images Fs

theorem Sealed.snoc {images : List (List UInt8)} {Fs : List (List Entry)} (h : Sealed images Fs) {m : Mem}
    {F : List Entry} (hF : Image m F) : Sealed (images ++ [slice m 0 storeBufMaxSize]) (Fs ++ [F]) :=
  List.rel_append h (List.Forall₂.cons ⟨m, rfl, hF⟩ List.Forall₂.nil)

theorem Sealed.reads {images : List (List UInt8)} {Fs : List (List Entry)} (h : Sealed images Fs) :
    List.Forall₂ Reads images (Fs.map (List.map Entry.read)) := by
  rw [List.forall₂_map_right_iff]
  refine List.Forall₂.imp (fun image F hF => ?_) h
  obtain ⟨m, himage, hm⟩ := hF
  rw [himage]
  exact hm.reads

/-- the closed files are read back as what was copied to them -/
theorem DiskInv.reads {s : Recorder} (h : DiskInv s) {stored : List (List (List UInt8 × ℕ))}
    (hreads : List.Forall₂ Reads s.sys.files stored) :
    List.Forall₂ (fun path fs => ∃ file, s.disk path = some file ∧ Reads file fs) s.closed stored := by
  refine List.forall₂_iff_get.2 ⟨h.closed.length_eq.trans hreads.length_eq, fun k hk hk' => ?_⟩
  have hfile : k < s.sys.files.length := h.closed.length_eq ▸ hk
  exact ⟨_, h.closed.get hk hfile, hreads.get hfile hk'⟩

/-! ## The invariant -/

/-- the device with another buffer as the current one: the writer does not look at which it is -/
def Sys.facing (s : Sys) (i : BufId) : Sys := { s with dev := { s.dev with pCurStoreBuf := i } }

/-- the slot names a buffer without a record, which the writer will drop -/
structure Dropped (s : Sys) : Prop where
  size : ∀ i, (s.dev.buf i).storeSize = storeBufMaxSize
  slot : s.dev.pStoreBufWr = some s.dev.pCurStoreBuf
  empty : (readInfo s.dev.cur.storeBuf (slotPos 0)).head ≠ storeInfoHead
  idle : s.writer = none
  files : s.sealedImages = s.files

/-- while a flush waits for the writer, the slot may name the current buffer -/
def Flushing (s : Sys) : Prop := HandOffInv (s.facing s.dev.pCurStoreBuf.other) ∨ Dropped s

/-- `L` are the frames in the current buffer -/
def PhaseInv (noRet : ℕ → ℤ) (s : Recorder) (L : List Entry) : Prop :=
  match s.phase with
  | .recording => HandOffInv s.sys ∧ StreamInv noRet s.sys.dev L
  | .removed => L = [] ∧ s.sys.dev.pStoreBufWr = none ∧ s.sys.sealedImages = s.sys.files
  | _ => L = [] ∧ Flushing s.sys

/-- the sealed images and the current buffer are the log -/
def RecInv (noRet : ℕ → ℤ) (s : Recorder) (log : List (List UInt8 × ℕ)) : Prop :=
  ∃ Fs L, Sealed s.sys.sealedImages Fs ∧ (Fs.flatten ++ L).map Entry.read = log ∧ PhaseInv noRet s L

section Writer

variable {noRet : ℕ → ℤ} {s t : Sys} {a : Act}

/-- the writer seals nothing, and of the device it only changes the slot -/
theorem Sys.writer_frame (ha : a.isWriter = true) (h : s.step noRet a = some t) :
    t.sealedImages = s.sealedImages ∧ (t.dev = s.dev ∨ t.dev = { s.dev with pStoreBufWr := none }) := by
  cases a with
  | call c => cases ha
  | scan =>
    obtain ⟨-, ⟨-, rfl⟩ | ⟨i, -, ⟨-, rfl⟩ | ⟨-, rfl⟩⟩⟩ := Sys.scan_cases h
    · exact ⟨rfl, Or.inl rfl⟩
    · exact ⟨rfl, Or.inr rfl⟩
    · exact ⟨rfl, Or.inl rfl⟩
  | block =>
    obtain ⟨out, i, -, -, -, rfl⟩ := Sys.block_cases h
    exact ⟨rfl, Or.inl rfl⟩
  | finish =>
    obtain ⟨out, -, -, rfl⟩ := Sys.finish_cases h
    exact ⟨rfl, Or.inr rfl⟩

theorem Sys.writer_cur (ha : a.isWriter = true) (h : s.step noRet a = some t) : t.dev.cur = s.dev.cur := by
  rcases (Sys.writer_frame ha h).2 with hd | hd
  · rw [hd]
  · rw [hd]
    rfl

/-- the writer works on the sealed buffers only -/
theorem Sys.writer_run_frame {ws : List Act} (hws : ∀ a ∈ ws, Act.isWriter a = true)
    (h : run (Sys.step noRet) s ws = some t) : t.sealedImages = s.sealedImages ∧ t.dev.cur = s.dev.cur := by
  induction ws generalizing s with
  | nil =>
    cases h
    exact ⟨rfl, rfl⟩
  | cons a ws ih =>
    obtain ⟨u, hu, hut⟩ := Option.bind_eq_some_iff.1 h
    have ha := hws a List.mem_cons_self
    obtain ⟨hsealed, hcur⟩ := ih (fun b hb => hws b (List.mem_cons_of_mem _ hb)) hut
    exact ⟨hsealed.trans (Sys.writer_frame ha hu).1, hcur.trans (Sys.writer_cur ha hu)⟩

theorem Sys.writer_pCurStoreBuf (ha : a.isWriter = true) (h : s.step noRet a = some t) :
    t.dev.pCurStoreBuf = s.dev.pCurStoreBuf := by
  rcases (Sys.writer_frame ha h).2 with hd | hd
  · rw [hd]
  · rw [hd]

theorem Sys.facing_buf (s : Sys) (i j : BufId) : (s.facing i).dev.buf j = s.dev.buf j := by cases j <;> rfl

/-- the writer takes the same step whichever buffer is the current one -/
theorem Sys.step_facing (ha : a.isWriter = true) (i : BufId) :
    (s.facing i).step noRet a = (s.step noRet a).map fun t => t.facing i := by
  have hw : (s.facing i).writer = s.writer := rfl
  have hslot : (s.facing i).dev.pStoreBufWr = s.dev.pStoreBufWr := rfl
  cases a with
  | call c => cases ha
  | scan =>
    simp only [Sys.step, Sys.scan, hw, hslot, Sys.facing_buf]
    cases s.writer with
    | some out => rfl
    | none =>
      cases s.dev.pStoreBufWr with
      | none => rfl
      | some j =>
        dsimp only
        split_ifs
        · rfl
        · rfl
  | block =>
    simp only [Sys.step, Sys.block, hw, hslot, Sys.facing_buf]
    cases s.writer with
    | none => rfl
    | some out =>
      cases s.dev.pStoreBufWr with
      | none => rfl
      | some j =>
        dsimp only
        split_ifs
        · rfl
        · rfl
  | finish =>
    simp only [Sys.step, Sys.finish, hw]
    cases s.writer with
    | none => rfl
    | some out =>
      dsimp only
      split_ifs
      · rfl
      · rfl

/-- a condition on calls says nothing about the writer -/
theorem slotFree_writer (ha : a.isWriter = true) : SlotFree noRet s a := by
  cases a with
  | call c => cases ha
  | scan => trivial
  | block => trivial
  | finish => trivial

/-- a buffer without a record is taken from the slot and not written -/
theorem Dropped.scan (h : Dropped s) : s.scan = some { s with dev := { s.dev with pStoreBufWr := none } } := by
  have hempty := h.empty
  rw [slotPos_zero] at hempty
  simp only [Sys.scan, h.idle, h.slot, h.size]
  exact if_pos hempty

theorem Dropped.step (h : Dropped s) (ha : a.isWriter = true) (ht : s.step noRet a = some t) :
    HandOffInv (t.facing t.dev.pCurStoreBuf.other) := by
  have hw := h.idle
  cases a with
  | call c => cases ha
  | scan =>
    cases h.scan.symm.trans ht
    refine ⟨h.size, Or.inl ⟨rfl, h.files⟩, fun i hi => ?_, fun out hout => ?_⟩
    · cases hi
    · cases hw.symm.trans hout
  | block =>
    obtain ⟨out, i, hout, -⟩ := Sys.block_cases ht
    cases hw.symm.trans hout
  | finish =>
    obtain ⟨out, hout, -⟩ := Sys.finish_cases ht
    cases hw.symm.trans hout

theorem Flushing.step (h : Flushing s) (ha : a.isWriter = true) (ht : s.step noRet a = some t) : Flushing t := by
  rcases h with h | h
  · have hstep : (s.facing s.dev.pCurStoreBuf.other).step noRet a = _ := Sys.step_facing ha _
    rw [ht, Option.map_some] at hstep
    refine Or.inl ?_
    rw [Sys.writer_pCurStoreBuf ha ht]
    exact h.step (slotFree_writer ha) hstep
  · exact Or.inl (h.step ha ht)

end Writer

section Handing

variable {noRet : ℕ → ℤ} {s : Sys} {d : StoreDevice} {L : List Entry}

/-- an idle writer before a flush: a file is only open while the slot names its buffer -/
theorem HandOffInv.idle (h : HandOffInv s) (hfree : s.dev.pStoreBufWr = none) : s.writer = none := by
  cases hw : s.writer with
  | none => rfl
  | some out =>
    obtain ⟨i, -, hi, -⟩ := h.copied out hw
    rw [hfree] at hi
    cases hi

theorem HandOffInv.sealed_eq (h : HandOffInv s) (hfree : s.dev.pStoreBufWr = none) : s.sealedImages = s.files := by
  rcases h.ok with ⟨-, hlog⟩ | ⟨i, hi, -⟩
  · exact hlog
  · rw [hfree] at hi
    cases hi

/-- a flush hands over an image of the frames in the current buffer; without frames there is nothing to write -/
theorem flush_seals {Fs : List (List Entry)} (h : HandOffInv s) (hfree : s.dev.pStoreBufWr = none)
    (hsize : ∀ i, (d.buf i).storeSize = storeBufMaxSize) (hslot : d.pStoreBufWr = some d.pCurStoreBuf)
    (himage : Image d.cur.storeBuf L) (hFs : Sealed s.sealedImages Fs) :
    ∃ Gs, Sealed (s.flush d).sealedImages Gs ∧ Gs.flatten = Fs.flatten ++ L ∧ Flushing (s.flush d) := by
  have hw := h.idle hfree
  have hfiles := h.sealed_eq hfree
  have hwritten : d.written =
      if (readInfo d.cur.storeBuf (slotPos 0)).head = storeInfoHead then [d.cur.storeBuf] else [] := by
    rw [slotPos_zero, ← hsize d.pCurStoreBuf, StoreDevice.written, hslot]
    rfl
  by_cases hnil : L = []
  · subst hnil
    have hhead : (readInfo d.cur.storeBuf (slotPos 0)).head ≠ storeInfoHead := himage.stop
    rw [if_neg hhead] at hwritten
    have hsealed : (s.flush d).sealedImages = s.sealedImages := by
      rw [Sys.flush, hwritten, List.map_nil, List.append_nil]
    refine ⟨Fs, by rw [hsealed]; exact hFs, by rw [List.append_nil], Or.inr ⟨hsize, hslot, hhead, hw, ?_⟩⟩
    rw [hsealed, hfiles]
    rfl
  · have hhead : (readInfo d.cur.storeBuf (slotPos 0)).head = storeInfoHead :=
      himage.holds.head_slot 0 (List.length_pos_iff.2 hnil)
    rw [if_pos hhead] at hwritten
    have hsealed : (s.flush d).sealedImages = s.sealedImages ++ [d.cur.image] := by
      rw [Sys.flush, hwritten]
      rfl
    refine ⟨Fs ++ [L], ?_, by simp, Or.inl ⟨hsize, Or.inr ⟨d.pCurStoreBuf, hslot, ?_, ?_⟩, ?_, ?_⟩⟩
    · rw [hsealed]
      exact hFs.snoc himage
    · exact StoreDevice.ne_other _
    · show (s.flush d).sealedImages = s.files ++ _
      rw [hsealed, hfiles]
      rfl
    · intro i hi
      cases hslot.symm.trans hi
      exact hhead
    · intro out hout
      cases hw.symm.trans hout

end Handing

/-- a rotation leaves the first record of the current buffer -/
theorem StreamInv.sealKeeps {noRet : ℕ → ℤ} {d : StoreDevice} {L : List Entry} {c : Call} (h : StreamInv noRet d L)
    (hc : StreamOk noRet d c) (hf : d.Full c) : SealKeeps noRet d c := by
  have hne : 0 < L.length := List.length_pos_iff.2 (h.ne_nil hc.fits hf)
  refine ⟨h.holds.head_slot 0 hne, fun _ => ?_, fun hk pos hs => ?_⟩
  · have htop := h.holds.sealed_top
    simp only [sizeofStoreInfo] at htop ⊢
    omega
  · obtain ⟨j, hj, rfl, -⟩ := StoreDevice.search_slot h.holds hs
    have hpos := h.tail_pos hc hf hk hj hs
    have hroom := h.holds.room
    have hslot : slotPos j + 96 * (j + 1) = storeBufMaxSize := slotPos_add (by omega)
    simp only [sizeofStoreInfo]
    omega

/-- a call that returns: a rotation seals the current buffer -/
theorem Recorder.call_eq {cfg : Config} {s : Recorder} {c : Call} {d : StoreDevice} (hphase : s.phase = .recording)
    (hflag : c.flag = false) (hd : s.sys.dev.writeFrame cfg.noRet c = some d) :
    s.step cfg (.act (.call c)) = some { s with
      sys := { s.sys with
        dev := d
        sealedImages := if s.sys.dev.Full c then s.sys.sealedImages ++ [(d.buf s.sys.dev.pCurStoreBuf).image]
          else s.sys.sealedImages } } := by
  rw [Recorder.step, if_pos ⟨by rw [hphase]; decide, fun _ => hphase⟩,
    Sys.call_some hflag ((StoreDevice.writeFrameToBuf_of_flag_false hflag cfg.noRet _).trans hd), Option.map_some]
  rfl

namespace RecInv

variable {cfg : Config} {s : Recorder} {log : List (List UInt8 × ℕ)}

/-- a call appends its frame to the current buffer, before which a rotation may seal the frames before some frame -/
theorem call {c : Call} (h : RecInv cfg.noRet s log) (hok : RecordingOk cfg s (.act (.call c))) :
    ∃ t, s.step cfg (.act (.call c)) = some t ∧ RecInv cfg.noRet t (log ++ (RecordOp.act (.call c)).recorded) := by
  obtain ⟨hphase, hc, hfree⟩ := hok
  obtain ⟨Fs, L, hFs, rfl, hinv⟩ := h
  simp only [PhaseInv, hphase] at hinv
  obtain ⟨hhand, hstream⟩ := hinv
  have hread : [(c.frame.entry c.ms s.sys.dev.frameIndex).read] = (RecordOp.act (.call c)).recorded := rfl
  by_cases hf : s.sys.dev.Full c
  · obtain ⟨d, k, hd, -, -, himage, hstream'⟩ := hstream.rotation_split hc hf
    refine ⟨_, Recorder.call_eq hphase hc.flag hd, Fs ++ [L.take k],
      L.drop k ++ [c.frame.entry c.ms s.sys.dev.frameIndex], ?_, ?_, ?_⟩
    · simp only [if_pos hf]
      exact hFs.snoc himage
    · have hsplit : (Fs ++ [L.take k]).flatten ++ (L.drop k ++ [c.frame.entry c.ms s.sys.dev.frameIndex]) =
          (Fs.flatten ++ L) ++ [c.frame.entry c.ms s.sys.dev.frameIndex] := by
        rw [List.flatten_append, List.flatten_singleton, List.append_assoc, ← List.append_assoc (L.take k),
          List.take_append_drop, List.append_assoc]
      rw [hsplit, List.map_append, ← hread]
      rfl
    · simp only [PhaseInv, hphase, if_pos hf]
      exact ⟨hhand.rotation hf (hfree hf) (hstream.sealKeeps hc hf) hd, hstream'⟩
  · obtain ⟨d, hd, hstream'⟩ := hstream.append hc hf
    refine ⟨_, Recorder.call_eq hphase hc.flag hd, Fs, L ++ [c.frame.entry c.ms s.sys.dev.frameIndex], ?_, ?_, ?_⟩
    · simp only [if_neg hf]
      exact hFs
    · rw [← hread]
      simp
    · simp only [PhaseInv, hphase, if_neg hf]
      exact ⟨hhand.append hf hd, hstream'⟩

/-- the writer moves frames from the slot to a file -/
theorem writer {a : Act} {u : Sys} (h : RecInv cfg.noRet s log) (ha : a.isWriter = true) (hphase : s.phase ≠ .removed)
    (hu : s.sys.step cfg.noRet a = some u) :
    s.step cfg (.act a) = some (s.onDisk cfg u a) ∧ RecInv cfg.noRet (s.onDisk cfg u a) log := by
  have hstep : s.step cfg (.act a) = some (s.onDisk cfg u a) := by
    rw [Recorder.step, if_pos ⟨hphase, fun hcall => absurd (hcall.symm.trans ha) (by decide)⟩, hu, Option.map_some]
  obtain ⟨Fs, L, hFs, hlog, hinv⟩ := h
  have hsealed := (Sys.writer_frame ha hu).1
  refine ⟨hstep, Fs, L, by rw [Recorder.onDisk_sys, hsealed]; exact hFs, hlog, ?_⟩
  rw [PhaseInv, Recorder.onDisk_sys, Recorder.onDisk_phase]
  cases hp : s.phase with
  | recording =>
    simp only [PhaseInv, hp] at hinv ⊢
    refine ⟨hinv.1.step (slotFree_writer ha) hu, ?_, hinv.2.decided⟩
    rw [Sys.writer_cur ha hu]
    exact hinv.2.holds
  | stopping =>
    simp only [PhaseInv, hp] at hinv ⊢
    exact ⟨hinv.1, hinv.2.step ha hu⟩
  | removing =>
    simp only [PhaseInv, hp] at hinv ⊢
    exact ⟨hinv.1, hinv.2.step ha hu⟩
  | removed => exact absurd hp hphase

theorem stop {c : Call} (h : RecInv cfg.noRet s log) (hok : RecordingOk cfg s (.stop c)) :
    ∃ t, s.step cfg (.stop c) = some t ∧ RecInv cfg.noRet t log := by
  obtain ⟨hphase, hflag, hfree, hfits, hf⟩ := hok
  obtain ⟨Fs, L, hFs, hlog, hinv⟩ := h
  simp only [PhaseInv, hphase] at hinv
  obtain ⟨hhand, hstream⟩ := hinv
  obtain ⟨d, hd⟩ := stopSeal_returns (c := c) hstream.holds fun hno => absurd hf hno
  obtain ⟨hcur, hslot, -, hfields⟩ := StoreDevice.stopSeal_frame hd
  have himage : Image d.cur.storeBuf L := by
    rw [StoreDevice.stopSeal_full hf hd]
    exact image_sealed hstream.holds
  obtain ⟨Gs, hGs, hflat, hflush⟩ := flush_seals hhand hfree
    (fun i => (hfields i).1.trans (hhand.size i)) (by rw [hslot, hcur]) himage hFs
  refine ⟨{ s with sys := s.sys.flush d, phase := .stopping }, ?_, Gs, [], hGs, ?_, rfl, hflush⟩
  · rw [Recorder.step, if_pos ⟨hphase, hflag, hfree⟩, hd, Option.map_some]
  · rw [List.append_nil, hflat]
    exact hlog

theorem remove (h : RecInv cfg.noRet s log) (hok : RecordingOk cfg s .remove) :
    ∃ t, s.step cfg .remove = some t ∧ RecInv cfg.noRet t log := by
  obtain ⟨hphase, hfree, hstale⟩ := hok
  obtain ⟨Fs, L, hFs, hlog, hinv⟩ := h
  simp only [PhaseInv, hphase] at hinv
  obtain ⟨hhand, hstream⟩ := hinv
  rw [staleSlot_iff hstream.holds] at hstale
  obtain ⟨Gs, hGs, hflat, hflush⟩ := flush_seals hhand hfree
    (d := { s.sys.dev with pStoreBufWr := some s.sys.dev.pCurStoreBuf }) hhand.size rfl
    ⟨hstream.holds.indexed, hstream.holds.room, hstale⟩ hFs
  refine ⟨{ s with
    sys := s.sys.flush { s.sys.dev with pStoreBufWr := some s.sys.dev.pCurStoreBuf }
    phase := .removing }, ?_, Gs, [], hGs, ?_, rfl, hflush⟩
  · rw [Recorder.step, if_pos ⟨hphase, hfree⟩]
  · rw [List.append_nil, hflat]
    exact hlog

/-- the slot is empty again: what was in it is in a file -/
theorem flushed {u : Sys} (h : Flushing u) (hfree : u.dev.pStoreBufWr = none) :
    u.writer = none ∧ u.sealedImages = u.files ∧ ∀ i, (u.dev.buf i).storeSize = storeBufMaxSize := by
  rcases h with h | h
  · exact ⟨h.idle hfree, h.sealed_eq hfree, h.size⟩
  · have hslot := h.slot
    rw [hfree] at hslot
    cases hslot

theorem resume (h : RecInv cfg.noRet s log) (hok : RecordingOk cfg s .resume) :
    ∃ t, s.step cfg .resume = some t ∧ RecInv cfg.noRet t log := by
  obtain ⟨hphase, hfree⟩ := hok
  obtain ⟨Fs, L, hFs, hlog, hinv⟩ := h
  rcases hphase with hphase | hphase
  · simp only [PhaseInv, hphase] at hinv
    obtain ⟨rfl, hflush⟩ := hinv
    obtain ⟨hw, hfiles, hsize⟩ := flushed hflush hfree
    refine ⟨{ s with sys := { s.sys with dev := s.sys.dev.stopReset }, phase := .recording }, ?_, Fs, [], hFs, hlog,
      ⟨?_, ?_, ?_, ?_⟩, ?_, ?_⟩
    · simp only [Recorder.step, hfree, hphase, if_true]
    · intro i
      rw [stopReset_storeSize]
      exact hsize i
    · exact Or.inl ⟨rfl, hfiles⟩
    · intro i hi
      cases hi
    · intro out hout
      cases hw.symm.trans hout
    · rw [StoreDevice.stopReset_cur]
      exact Holds.reset_nil _ _
    · intro e he
      exact absurd he List.not_mem_nil
  · simp only [PhaseInv, hphase] at hinv
    obtain ⟨rfl, hflush⟩ := hinv
    refine ⟨{ s with phase := .removed }, ?_, Fs, [], hFs, hlog, rfl, hfree, (flushed hflush hfree).2.1⟩
    simp only [Recorder.step, hfree, hphase, if_true]

theorem step {op : RecordOp} (h : RecInv cfg.noRet s log) (hok : RecordingOk cfg s op) :
    ∃ t, s.step cfg op = some t ∧ RecInv cfg.noRet t (log ++ op.recorded) := by
  have quiet : ∀ o : RecordOp, o.recorded = [] → (∃ t, s.step cfg o = some t ∧ RecInv cfg.noRet t log) →
      ∃ t, s.step cfg o = some t ∧ RecInv cfg.noRet t (log ++ o.recorded) := by
    intro o hnil hex
    rw [hnil, List.append_nil]
    exact hex
  have hwriter : ∀ a, a.isWriter = true → (s.phase ≠ .removed ∧ (∃ t, s.sys.step cfg.noRet a = some t) ∧
      (a = .scan → NewFile cfg s)) → ∃ t, s.step cfg (.act a) = some t ∧ RecInv cfg.noRet t log := by
    intro a ha hen
    obtain ⟨hphase, ⟨u, hu⟩, -⟩ := hen
    exact ⟨_, h.writer ha hphase hu⟩
  cases op with
  | act a =>
    cases a with
    | call c => exact h.call hok
    | scan => exact quiet _ rfl (hwriter _ rfl hok)
    | block => exact quiet _ rfl (hwriter _ rfl hok)
    | finish => exact quiet _ rfl (hwriter _ rfl hok)
  | openFails => exact hok.elim
  | writeFails => exact hok.elim
  | stop c => exact quiet _ rfl (h.stop hok)
  | remove => exact quiet _ rfl (h.remove hok)
  | resume => exact quiet _ rfl (h.resume hok)

end RecInv

/-! ## Reading the recording back -/

theorem Sealed.unsnoc {images : List (List UInt8)} {image : List UInt8} {Fs : List (List Entry)}
    (h : Sealed (images ++ [image]) Fs) :
    ∃ Gs F, Fs = Gs ++ [F] ∧ Sealed images Gs ∧ Reads image (F.map Entry.read) := by
  induction images generalizing Fs with
  | nil =>
    cases h with
    | cons hF hnil =>
      cases hnil
      obtain ⟨m, himage, hm⟩ := hF
      refine ⟨[], _, rfl, List.Forall₂.nil, ?_⟩
      rw [himage]
      exact hm.reads
  | cons x images ih =>
    cases h with
    | cons hF hrest =>
      obtain ⟨Gs, F, rfl, hGs, hread⟩ := ih hrest
      exact ⟨_ :: Gs, F, rfl, List.Forall₂.cons hF hGs, hread⟩

/-- the files are read back as `stored`, and the buffer in the slot as `waiting` -/
structure SlotAccount (s : Sys) (stored : List (List (List UInt8 × ℕ))) (waiting : List (List UInt8 × ℕ)) : Prop where
  files : List.Forall₂ Reads s.files stored
  slot : ∀ i, s.dev.pStoreBufWr = some i → Reads (s.dev.buf i).image waiting
  free : s.dev.pStoreBufWr = none → waiting = []

section ReadBack

variable {noRet : ℕ → ℤ} {s : Sys} {Fs : List (List Entry)}

/-- nothing in the slot but an image without frames: the files are all -/
theorem SlotAccount.of_files (hFs : Sealed s.files Fs)
    (hslot : ∀ i, s.dev.pStoreBufWr = some i → Reads (s.dev.buf i).image []) :
    ∃ stored waiting, SlotAccount s stored waiting ∧ stored.flatten ++ waiting = Fs.flatten.map Entry.read :=
  ⟨Fs.map (List.map Entry.read), [], ⟨hFs.reads, hslot, fun _ => rfl⟩, by rw [List.append_nil, List.map_flatten]⟩

theorem HandOffInv.account (h : HandOffInv s) (hFs : Sealed s.sealedImages Fs) :
    ∃ stored waiting, SlotAccount s stored waiting ∧ stored.flatten ++ waiting = Fs.flatten.map Entry.read := by
  rcases h.ok with ⟨hnone, hlog⟩ | ⟨i, hi, -, hlog⟩
  · rw [hlog] at hFs
    refine SlotAccount.of_files hFs fun i hi => ?_
    rw [hnone] at hi
    cases hi
  · rw [hlog] at hFs
    obtain ⟨Gs, F, rfl, hGs, hread⟩ := hFs.unsnoc
    refine ⟨Gs.map (List.map Entry.read), F.map Entry.read, ⟨hGs.reads, fun j hj => ?_, fun hnone => ?_⟩, ?_⟩
    · cases hi.symm.trans hj
      exact hread
    · rw [hi] at hnone
      cases hnone
    · rw [List.flatten_append, List.map_append, List.map_flatten, List.flatten_singleton]

theorem Dropped.account (h : Dropped s) (hFs : Sealed s.sealedImages Fs) :
    ∃ stored waiting, SlotAccount s stored waiting ∧ stored.flatten ++ waiting = Fs.flatten.map Entry.read := by
  have hempty : Image s.dev.cur.storeBuf [] := ⟨trivial, by decide, h.empty⟩
  rw [h.files] at hFs
  refine SlotAccount.of_files hFs fun i hi => ?_
  cases h.slot.symm.trans hi
  exact hempty.reads

theorem Flushing.account (h : Flushing s) (hFs : Sealed s.sealedImages Fs) :
    ∃ stored waiting, SlotAccount s stored waiting ∧ stored.flatten ++ waiting = Fs.flatten.map Entry.read := by
  rcases h with h | h
  · obtain ⟨stored, waiting, hacc, hflat⟩ := h.account hFs
    refine ⟨stored, waiting, ⟨hacc.files, fun i hi => ?_, hacc.free⟩, hflat⟩
    rw [← Sys.facing_buf s s.dev.pCurStoreBuf.other i]
    exact hacc.slot i hi
  · exact h.account hFs

/-- the writer alone empties the slot -/
theorem HandOffInv.drain_slot (noRet : ℕ → ℤ) (h : HandOffInv s) : ∃ ws t, (∀ a ∈ ws, Act.isWriter a = true) ∧
    run (Sys.step noRet) s ws = some t ∧ t.dev.pStoreBufWr = none := by
  obtain ⟨ws, t, hws, hrun, hsealed, hfiles⟩ : ∃ ws t, (∀ a ∈ ws, Act.isWriter a = true) ∧
    run (Sys.step noRet) s ws = some t ∧ t.sealedImages = s.sealedImages ∧ t.files = s.sealedImages := h.drain
  have hok : Steps (Sys.step noRet) (SlotFree noRet) s ws := Steps.of_forall fun a ha _ => slotFree_writer (hws a ha)
  have hinv : HandOffInv t := run_inv (fun _ _ _ hi hp ht => hi.step hp ht) h hok hrun
  refine ⟨ws, t, hws, hrun, ?_⟩
  rcases hinv.ok with ⟨hnone, -⟩ | ⟨i, -, -, hlog⟩
  · exact hnone
  · rw [hsealed, hfiles] at hlog
    have hlen := congrArg List.length hlog
    rw [List.length_append, List.length_singleton] at hlen
    omega

theorem run_facing (i : BufId) {ws : List Act} (hws : ∀ a ∈ ws, Act.isWriter a = true) :
    run (Sys.step noRet) (s.facing i) ws = (run (Sys.step noRet) s ws).map fun t => t.facing i := by
  induction ws generalizing s with
  | nil => rfl
  | cons a ws ih =>
    rw [run, run, Sys.step_facing (hws a List.mem_cons_self)]
    cases hstep : s.step noRet a with
    | none => rfl
    | some t => exact ih fun b hb => hws b (List.mem_cons_of_mem _ hb)

theorem Flushing.drain_slot (noRet : ℕ → ℤ) (h : Flushing s) : ∃ ws t, (∀ a ∈ ws, Act.isWriter a = true) ∧
    run (Sys.step noRet) s ws = some t ∧ t.dev.pStoreBufWr = none := by
  rcases h with h | h
  · obtain ⟨ws, t, hws, hrun, hnone⟩ := h.drain_slot noRet
    rw [run_facing _ hws] at hrun
    obtain ⟨u, hu, rfl⟩ := Option.map_eq_some_iff.1 hrun
    exact ⟨ws, u, hws, hu, hnone⟩
  · refine ⟨[.scan], _, fun a ha => ?_, run_cons_some h.scan rfl, rfl⟩
    rw [List.mem_singleton.1 ha]
    rfl

end ReadBack

namespace RecInv

variable {cfg : Config} {s : Recorder} {log : List (List UInt8 × ℕ)}

theorem account {noRet : ℕ → ℤ} (h : RecInv noRet s log) (hdisk : DiskInv s) :
    ∃ stored waiting current, Account s stored waiting current ∧ stored.flatten ++ waiting ++ current = log := by
  obtain ⟨Fs, L, hFs, hlog, hinv⟩ := h
  rw [List.map_append] at hlog
  have assemble : (∃ stored waiting, SlotAccount s.sys stored waiting ∧
        stored.flatten ++ waiting = Fs.flatten.map Entry.read) →
      (s.phase = .recording → Holds s.sys.dev.cur L) → (s.phase ≠ .recording → L = []) →
      ∃ stored waiting current, Account s stored waiting current ∧ stored.flatten ++ waiting ++ current = log := by
    intro hacc hbuf hnil
    obtain ⟨stored, waiting, hslot, hflat⟩ := hacc
    refine ⟨stored, waiting, L.map Entry.read, ⟨hdisk.reads hslot.files, hdisk.distinct, hslot.slot, hslot.free,
      fun hp => ⟨L, hbuf hp, rfl⟩, fun hp => ?_⟩, by rw [hflat, hlog]⟩
    rw [hnil hp, List.map_nil]
  cases hp : s.phase with
  | recording =>
    simp only [PhaseInv, hp] at hinv
    exact assemble (hinv.1.account hFs) (fun _ => hinv.2.holds) fun hne => absurd hp hne
  | removed =>
    simp only [PhaseInv, hp] at hinv
    obtain ⟨hL, hnone, hfiles⟩ := hinv
    rw [hfiles] at hFs
    refine assemble (SlotAccount.of_files hFs fun i hi => ?_) (fun hrec => ?_) fun _ => hL
    · rw [hnone] at hi
      cases hi
    · rw [hp] at hrec
      cases hrec
  | stopping =>
    simp only [PhaseInv, hp] at hinv
    refine assemble (hinv.2.account hFs) (fun hrec => ?_) fun _ => hinv.1
    rw [hp] at hrec
    cases hrec
  | removing =>
    simp only [PhaseInv, hp] at hinv
    refine assemble (hinv.2.account hFs) (fun hrec => ?_) fun _ => hinv.1
    rw [hp] at hrec
    cases hrec

/-- steps of the writer on the device are steps of the whole, and meet `RecordingOk` if the first name is new -/
theorem writer_run {ws : List Act} {u : Sys} (h : RecInv cfg.noRet s log) (hdisk : DiskInv s) (hnew : NewFile cfg s)
    (hphase : s.phase ≠ .removed) (hws : ∀ a ∈ ws, Act.isWriter a = true)
    (hu : run (Sys.step cfg.noRet) s.sys ws = some u) :
    ∃ t, Steps (Recorder.step cfg) (RecordingOk cfg) s (ws.map RecordOp.act) ∧
      run (Recorder.step cfg) s (ws.map RecordOp.act) = some t ∧ t.sys = u ∧ t.phase = s.phase ∧
      RecInv cfg.noRet t log ∧ DiskInv t := by
  induction ws generalizing s with
  | nil =>
    cases hu
    exact ⟨s, trivial, rfl, rfl, rfl, h, hdisk⟩
  | cons a ws ih =>
    have ha := hws a List.mem_cons_self
    obtain ⟨v, hv, hvu⟩ := Option.bind_eq_some_iff.1 hu
    obtain ⟨hstep, hinv⟩ := h.writer ha hphase hv
    have hok : RecordingOk cfg s (.act a) := by
      cases a with
      | call c => cases ha
      | scan => exact ⟨hphase, ⟨v, hv⟩, fun _ => hnew⟩
      | block => exact ⟨hphase, ⟨v, hv⟩, fun heq => by cases heq⟩
      | finish => exact ⟨hphase, ⟨v, hv⟩, fun heq => by cases heq⟩
    obtain ⟨t, hsteps, hrun, ht, hp, hend, hdend⟩ := ih hinv (hdisk.step hok hstep) (newFile_writer ha hv)
      (by rw [Recorder.onDisk_phase]; exact hphase) (fun b hb => hws b (List.mem_cons_of_mem _ hb))
      (by rw [Recorder.onDisk_sys]; exact hvu)
    refine ⟨t, ⟨hok, fun w hw => ?_⟩, run_cons_some hstep hrun, ht, ?_, hend, hdend⟩
    · cases hstep.symm.trans hw
      exact hsteps
    · rw [hp, Recorder.onDisk_phase]

/-- the writer alone empties the slot, if the name of its buffer is new -/
theorem drain (h : RecInv cfg.noRet s log) (hdisk : DiskInv s) (hnew : NewFile cfg s) :
    ∃ (ws : List Act) (t : Recorder), (∀ a ∈ ws, Act.isWriter a = true) ∧
      run (Sys.step cfg.noRet) s.sys ws = some t.sys ∧
      Steps (Recorder.step cfg) (RecordingOk cfg) s (ws.map RecordOp.act) ∧
      run (Recorder.step cfg) s (ws.map RecordOp.act) = some t ∧ t.sys.dev.pStoreBufWr = none ∧ t.phase = s.phase ∧
      RecInv cfg.noRet t log ∧ DiskInv t := by
  have lift : s.phase ≠ .removed → (∃ ws u, (∀ a ∈ ws, Act.isWriter a = true) ∧
        run (Sys.step cfg.noRet) s.sys ws = some u ∧ u.dev.pStoreBufWr = none) →
      ∃ (ws : List Act) (t : Recorder), (∀ a ∈ ws, Act.isWriter a = true) ∧
        run (Sys.step cfg.noRet) s.sys ws = some t.sys ∧
        Steps (Recorder.step cfg) (RecordingOk cfg) s (ws.map RecordOp.act) ∧
        run (Recorder.step cfg) s (ws.map RecordOp.act) = some t ∧ t.sys.dev.pStoreBufWr = none ∧
        t.phase = s.phase ∧ RecInv cfg.noRet t log ∧ DiskInv t := by
    intro hphase hex
    obtain ⟨ws, u, hws, hu, hnone⟩ := hex
    obtain ⟨t, hsteps, hrun, rfl, hp, hend⟩ := h.writer_run hdisk hnew hphase hws hu
    exact ⟨ws, t, hws, hu, hsteps, hrun, hnone, hp, hend⟩
  have hrec := h
  obtain ⟨Fs, L, -, -, hinv⟩ := hrec
  cases hp : s.phase with
  | recording =>
    simp only [PhaseInv, hp] at hinv
    rw [← hp]
    exact lift (by rw [hp]; decide) (hinv.1.drain_slot cfg.noRet)
  | stopping =>
    simp only [PhaseInv, hp] at hinv
    rw [← hp]
    exact lift (by rw [hp]; decide) (hinv.2.drain_slot cfg.noRet)
  | removing =>
    simp only [PhaseInv, hp] at hinv
    rw [← hp]
    exact lift (by rw [hp]; decide) (hinv.2.drain_slot cfg.noRet)
  | removed =>
    simp only [PhaseInv, hp] at hinv
    exact ⟨[], s, fun a ha => absurd ha List.not_mem_nil, rfl, trivial, rfl, hinv.2.1, hp, h, hdisk⟩

end RecInv

theorem init_recInv (cfg : Config) (ping pong : Mem) (pongStart : ℕ) (disk : Files) :
    RecInv cfg.noRet (Recorder.init cfg ping pong pongStart disk) [] := by
  refine ⟨[], [], List.Forall₂.nil, rfl, init_handOffInv _ _ _ _ _, addStoreDevice_holds _ _ _ _ _, ?_⟩
  intro e he
  exact absurd he List.not_mem_nil

theorem init_diskInv (cfg : Config) (ping pong : Mem) (pongStart : ℕ) (disk : Files) :
    DiskInv (Recorder.init cfg ping pong pongStart disk) := by
  refine ⟨List.Forall₂.nil, List.nodup_nil, fun out hout => ?_⟩
  cases hout

/-- a run that meets `RecordingOk` goes through, and keeps both invariants -/
theorem recording_run {cfg : Config} {ping pong : Mem} {pongStart : ℕ} {disk : Files} {ops : List RecordOp}
    (h : Steps (Recorder.step cfg) (RecordingOk cfg) (Recorder.init cfg ping pong pongStart disk) ops) :
    ∃ s, run (Recorder.step cfg) (Recorder.init cfg ping pong pongStart disk) ops = some s ∧
      RecInv cfg.noRet s (ops.flatMap RecordOp.recorded) ∧ DiskInv s := by
  have hstep : ∀ s op log, RecInv cfg.noRet s log ∧ DiskInv s → RecordingOk cfg s op →
      ∃ t, s.step cfg op = some t ∧ RecInv cfg.noRet t (log ++ op.recorded) ∧ DiskInv t := by
    intro s op log hs hok
    obtain ⟨t, ht, hinv⟩ := hs.1.step hok
    exact ⟨t, ht, hinv, hs.2.step hok ht⟩
  exact run_total_log RecordOp.recorded hstep
    ⟨init_recInv cfg ping pong pongStart disk, init_diskInv cfg ping pong pongStart disk⟩ h

/-- **A recording loses nothing and repeats nothing.** In every interleaving of calls, stops, a removal and the writer
that meets `RecordingOk` no step faults, and where it ends the frames of its calls with flag 0 are accounted for. -/
theorem recording_lossless (cfg : Config) (ping pong : Mem) (pongStart : ℕ) (disk : Files) (ops : List RecordOp)
    (h : Steps (Recorder.step cfg) (RecordingOk cfg) (Recorder.init cfg ping pong pongStart disk) ops) :
    ∃ s, run (Recorder.step cfg) (Recorder.init cfg ping pong pongStart disk) ops = some s ∧
      Lossless cfg s (ops.flatMap RecordOp.recorded) := by
  obtain ⟨s, hrun, hinv, hdisk⟩ := recording_run h
  refine ⟨s, hrun, hinv.account hdisk, fun hnew => ?_⟩
  obtain ⟨ws, t, hws, -, -, ht, hnone, -, hend, hdend⟩ := hinv.drain hdisk hnew
  obtain ⟨stored, waiting, current, hacc, hflat⟩ := hend.account hdend
  cases hacc.free hnone
  rw [List.append_nil] at hflat
  exact ⟨ws, t, stored, current, hws, ht, hnone, hacc, hflat⟩

/-! ## A recording with a tail move, a file and a stop -/

/-- calls as operations -/
def callOps (calls : List Call) : List RecordOp := calls.map fun c => .act (.call c)

/-- conditions on small frames that imply `RecordingOk` and can be evaluated -/
def smallOk (s : Recorder) : RecordOp → Bool
  | .act (.call c) => s.phase = .recording ∧ Fits s.sys.dev c ∧ 0 < c.frame.size ∧ c.frame.size ≤ 64 ∧
      (Playback.HasIdr (Playback.nalUnits (slice c.frame.data 0 c.frame.size)) ∨
        Playback.Closed (slice c.frame.data 0 c.frame.size))
  | _ => false

theorem recordingOk_of_small {s : Recorder} {op : RecordOp} (h : smallOk s op = true) : RecordingOk oneDay s op := by
  cases op with
  | act a =>
    cases a with
    | call c =>
      obtain ⟨hphase, ⟨hflag, hf⟩, hpos, hsize, hbytes⟩ := of_decide_eq_true h
      refine ⟨hphase, ⟨hflag, ?_, ?_, fun hfull => absurd hfull hf, fun hfull => absurd hfull hf,
        fun hfull => absurd hfull hf⟩, fun hfull => absurd hfull hf⟩
      · simp only [storeBufMaxSize, sizeofStoreInfo]
        omega
      · rcases hbytes with hidr | hclosed
        · exact decided_of_hasIdr hidr
        · refine decided_of_closed hclosed ?_
          rw [length_slice]
          exact Nat.cast_ne_zero.2 hpos.ne'
    | scan => cases h
    | block => cases h
    | finish => cases h
  | openFails => cases h
  | writeFails => cases h
  | stop c => cases h
  | remove => cases h
  | resume => cases h

/-- a recorder on zeroed buffers and an empty directory -/
def newRecorder : Recorder := Recorder.init oneDay (fun _ => 0) (fun _ => 0) 0 fun _ => none

/-- the steps of the writer record nothing -/
theorem recorded_writer {ws : List Act} (hws : ∀ a ∈ ws, Act.isWriter a = true) :
    (ws.map RecordOp.act).flatMap RecordOp.recorded = [] := by
  rw [List.flatMap_map, List.flatMap_eq_nil_iff]
  intro a ha
  cases a with
  | call c => cases hws _ ha
  | scan => rfl
  | block => rfl
  | finish => rfl

/-- in second 2, a frame that leaves room for two others -/
def largeCall : Call := { plainCall (storeBufMaxSize - 500) with time := 2 }

/-- what a tail move for the large frame needs, as far as the frame itself is not looked at -/
def tailReady (s : Recorder) : Bool :=
  s.phase = .recording ∧ s.sys.dev.pStoreBufWr = none ∧ s.sys.dev.Full largeCall ∧ s.sys.dev.cur.HasKey ∧
    (readInfo s.sys.dev.cur.storeBuf s.sys.dev.cur.storeInfoOffset).head ≠ storeInfoHead ∧
    ∀ p ∈ s.sys.dev.search oneDay.noRet, ∃ R ∈ s.sys.dev.tail p.1,
      (∀ r ∈ R, r.frameOffset + r.frameSize ≤ storeBufMaxSize) ∧
        sizes R + largeCall.frame.size + 96 * (R.length + 2) ≤ storeBufMaxSize

theorem recordingOk_large {s : Recorder} (h : tailReady s = true) : RecordingOk oneDay s (.act (.call largeCall)) := by
  obtain ⟨hphase, hslot, -, hkey, hstale, htail⟩ := of_decide_eq_true h
  refine ⟨hphase, ⟨rfl, by decide, decided_of_nonzero (fun x hx => ?_) ?_, fun _ _ => hkey, ?_, fun _ _ => hstale⟩,
    fun _ => hslot⟩
  · obtain ⟨i, -, rfl⟩ := List.mem_map.1 hx
    exact show (0xff : UInt8) ≠ 0 by decide
  · rw [length_slice]
    decide
  · intro _ _ pos hpos
    obtain ⟨R, hR, hfits⟩ := htail _ hpos
    exact ⟨R, hR, hfits⟩

/-- calls leave the disk alone -/
theorem callOps_frame {cfg : Config} {s t : Recorder} {calls : List Call}
    (h : run (Recorder.step cfg) s (callOps calls) = some t) : t.disk = s.disk ∧ t.closed = s.closed := by
  induction calls generalizing s with
  | nil =>
    cases h
    exact ⟨rfl, rfl⟩
  | cons c calls ih =>
    obtain ⟨u, hu, hut⟩ := Option.bind_eq_some_iff.1 h
    obtain ⟨-, hmap⟩ := Option.ite_none_right_eq_some.1 hu
    obtain ⟨v, -, rfl⟩ := Option.map_eq_some_iff.1 hmap
    exact ih (s := s.onDisk cfg v (.call c)) hut

/-- two groups of pictures in second 1; the large frame moves the second group to the other buffer, and the first one is
sealed -/
theorem large_recorded : ∃ s, Steps (Recorder.step oneDay) (RecordingOk oneDay) newRecorder
      (callOps (gopCalls ++ [largeCall])) ∧
    run (Recorder.step oneDay) newRecorder (callOps (gopCalls ++ [largeCall])) = some s ∧ s.phase = .recording ∧
    s.sys.sealedImages.length = 1 ∧ ∃ L e, Holds s.sys.dev.cur (L ++ [e]) := by
  have hsmall : Steps (Recorder.step oneDay) (fun s op => smallOk s op = true) newRecorder (callOps gopCalls) := by
    decide +kernel
  have heval : (run (Recorder.step oneDay) newRecorder (callOps gopCalls)).map
      (fun s => (tailReady s, s.sys.sealedImages.length)) = some (true, 0) := by
    decide +kernel
  have hok := Steps.mono (fun _ _ hop => recordingOk_of_small hop) hsmall
  obtain ⟨s, hrun, ⟨Fs, L, -, -, hinv⟩, -⟩ := recording_run hok
  obtain ⟨s', hs', hproj⟩ := Option.map_eq_some_iff.1 heval
  cases hrun.symm.trans hs'
  rw [Prod.mk.injEq] at hproj
  have hlarge := recordingOk_large hproj.1
  obtain ⟨hphase, -, hf, -⟩ := of_decide_eq_true hproj.1
  simp only [PhaseInv, hphase] at hinv
  obtain ⟨d, k, hd, -, -, -, hstream⟩ := hinv.2.rotation_split hlarge.2.1 hf
  have hstep := Recorder.call_eq hphase hlarge.2.1.flag hd
  rw [callOps, List.map_append]
  refine ⟨_, hok.append hrun ⟨hlarge, fun _ _ => trivial⟩, (run_append hrun).trans (run_cons_some hstep rfl), hphase,
    ?_, _, _, hstream.holds⟩
  simp only [if_pos hf, List.length_append, hproj.2, List.length_singleton]

/-- the stop call; its frame does not fit, and is not stored -/
def lastCall : Call := { plainCall (storeBufMaxSize - 192) with flag := true, time := 3 }

/-- **Tail move, file and stop.** The first group is in a file, and the stop has handed over the rest. -/
theorem recording_lossless_gops :
    ∃ (ws : List Act) (s : Recorder), run (Recorder.step oneDay) newRecorder
        (callOps (gopCalls ++ [largeCall]) ++ ws.map RecordOp.act ++ [.stop lastCall]) = some s ∧
      s.closed.length = 1 ∧ s.phase = .stopping ∧
      Lossless oneDay s ((gopCalls ++ [largeCall]).map fun c => (slice c.frame.data 0 c.frame.size, 1000)) := by
  obtain ⟨s, hcalls, hrun, hphase, hcount, L, e, hholds⟩ := large_recorded
  obtain ⟨hsdisk, hsclosed⟩ := callOps_frame hrun
  have hnew : NewFile oneDay s := by
    intro _ i _ _
    rw [hsdisk, hsclosed]
    exact ⟨List.not_mem_nil, fun old hold => by cases hold⟩
  obtain ⟨s', hs', hinv, hdisk⟩ := recording_run hcalls
  cases hrun.symm.trans hs'
  obtain ⟨ws, t, hws, hsys, hsteps, ht, hnone, hp, hend, hdend⟩ := hinv.drain hdisk hnew
  obtain ⟨hsealed, hcur⟩ := Sys.writer_run_frame hws hsys
  rw [hphase] at hp
  have hclosed : t.closed.length = 1 := by
    obtain ⟨Fs, M, -, -, hphinv⟩ := hend
    simp only [PhaseInv, hp] at hphinv
    rw [hdend.closed.length_eq, ← hphinv.1.sealed_eq hnone, hsealed, hcount]
  have hstop : RecordingOk oneDay t (.stop lastCall) := by
    refine ⟨hp, rfl, hnone, by decide, ?_⟩
    rw [← hcur] at hholds
    rw [StoreDevice.full_iff hholds, List.length_append, List.length_singleton]
    simp only [lastCall, plainCall, storeBufMaxSize]
    omega
  have hok : Steps (Recorder.step oneDay) (RecordingOk oneDay) newRecorder
      (callOps (gopCalls ++ [largeCall]) ++ ws.map RecordOp.act ++ [.stop lastCall]) :=
    (hcalls.append hrun hsteps).append ((run_append hrun).trans ht) ⟨hstop, fun _ _ => trivial⟩
  obtain ⟨u, hu, hlossless⟩ := recording_lossless oneDay (fun _ => 0) (fun _ => 0) 0 (fun _ => none) _ hok
  have hlast : run (Recorder.step oneDay) t [.stop lastCall] = some u :=
    (run_append ((run_append hrun).trans ht)).symm.trans hu
  obtain ⟨v, hv, hvu⟩ := Option.bind_eq_some_iff.1 hlast
  cases hvu
  obtain ⟨-, hmap⟩ := Option.ite_none_right_eq_some.1 hv
  obtain ⟨d, -, rfl⟩ := Option.map_eq_some_iff.1 hmap
  refine ⟨ws, _, hu, hclosed, rfl, ?_⟩
  rw [List.flatMap_append, List.flatMap_append, recorded_writer hws, List.append_nil] at hlossless
  exact hlossless

end StoreService.Store
