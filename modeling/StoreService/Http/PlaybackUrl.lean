/-
What a playback URL stands for (`TranslateToMp4`, media.cpp; `AddPlaybackDev` and `DelPlaybackDev`, http.cpp).

A playback request names a camera and a recording. The recording is converted to an mp4 in the directory of all
cameras, under its own name without the camera's, and the URL of the mp4 is written into an array of 128 bytes.
`DelPlaybackDev` gets the URL back, takes the name behind its last slash and makes a "%20" in it a blank.

Model: the path and the URL that `TranslateToMp4` makes of the path of a recording; the conversion itself is taken to
succeed and to leave its mp4 there. The names are those of `WriteToFileProc`, from dates as `localtime_r` gives them.

- `stands_apart_iff`: two requests have mp4 files and URLs of their own, neither conversion replaces the other's file,
  and each URL gets its own file deleted, iff their file names differ and neither URL was cut.
- `addPlaybackDev_run`, `delPlaybackDev_run`: what the two requests have converted and unlinked.
- `shared_url`: two cameras that begin a file in the same second share one mp4 and one URL; behind a host of 100 bytes
  the name in the URL is cut, two recordings share it, and the mp4 of a deleted playback stays.
-/
import StoreService.Core.Numeral
import StoreService.Store.Names
import StoreService.Http.Handlers

namespace StoreService.Http

open StoreService.Json StoreService.Check StoreService.Find
open StoreService.Store (Tm LocalTm decimal fileName)

/-! ## TranslateToMp4 -/

/-- std::string::rfind; `none` is npos -/
def rfind (c : UInt8) : Str → Option ℕ
  | [] => none
  | d :: s =>
    match rfind c s with
    | some i => some (i + 1)
    | none => if d = c then some 0 else none

/-- the name between the last slash and the last dot; a length that is negative, or npos, goes to the end -/
def nameInPath (filePath : Str) : Str :=
  let startPos := match rfind 47 filePath with
    | some i => i + 1
    | none => 0
  match rfind 46 filePath with
  | some endPos =>
    if startPos ≤ endPos then (filePath.drop startPos).take (endPos - startPos) else filePath.drop startPos
  | none => filePath.drop startPos

/-- `%d` -/
def intText (n : ℤ) : Str :=
  Numeral.bytes (if 0 ≤ n then Nat.toDigits 10 n.toNat else '-' :: Nat.toDigits 10 n.natAbs)

/-- the service with the settings of the downloads; a host has no slash -/
structure MediaServer extends Server where
  downloadMediaIp : Str
  playbackPort : ℤ
  no_slash : 47 ∉ downloadMediaIp

structure Mp4 where
  mp4Path : Str
  url : Str
deriving DecidableEq

/-- the URL as the format gives it -/
def MediaServer.urlText (srv : MediaServer) (name : Str) : Str :=
  bytes "http://" ++ cText srv.downloadMediaIp ++ bytes ":" ++ intText srv.playbackPort ++ bytes "/" ++ cText name ++
    bytes ".mp4"

/-- `TranslateToMp4`: where the mp4 is written, and its URL -/
def MediaServer.translateToMp4 (srv : MediaServer) (filePath : Str) : Mp4 where
  mp4Path := srv.transMediaPath ++ nameInPath filePath ++ bytes ".mp4"
  url := (srv.urlText (nameInPath filePath)).take 127

/-- the files after a conversion: what was at the path is unlinked and the mp4 written -/
def Mp4.written (mp4 : Mp4) (data : List UInt8) (files : Str → Option (List UInt8)) : Str → Option (List UInt8) :=
  Function.update files mp4.mp4Path (some data)

/-! ## Requests -/

/-- the body of a playback request for a recording of the service -/
structure PlaybackRequest where
  obj : CJson
  strings : Strings obj ["mainId", "subId", "file"]
  /-- when the recording began -/
  start : Tm
  twoDigits : (LocalTm.ofTm start).TwoDigits
  year : start.tmYear < 2 ^ 31
  file : textOf obj "file" = Numeral.bytes (fileName start)

/-- `pb_file` -/
def PlaybackRequest.pbFile (srv : MediaServer) (r : PlaybackRequest) : Str :=
  srv.storePath ++ idOf r.obj ++ bytes "/" ++ textOf r.obj "file"

def PlaybackRequest.mp4 (srv : MediaServer) (r : PlaybackRequest) : Mp4 := srv.translateToMp4 (r.pbFile srv)

/-- a URL with its blanks as "%20" -/
def escaped (url : Str) : Str := url.flatMap fun c => if c = 32 then bytes "%20" else [c]

/-- `DelPlaybackDev`, given the URL, unlinks the mp4 -/
def MediaServer.Deletes (srv : MediaServer) (mp4 : Mp4) (url : Str) : Prop :=
  ∀ obj, Strings obj ["mainId", "subId", "url"] → textOf obj "url" = url →
    (delPlaybackDev srv.toServer obj).run = some (.ok (.call (.unlink mp4.mp4Path)))

/-- the URLs of two requests stand for one recording each -/
structure StandApart (srv : MediaServer) (a b : PlaybackRequest) : Prop where
  paths : (a.mp4 srv).mp4Path ≠ (b.mp4 srv).mp4Path
  urls : (a.mp4 srv).url ≠ (b.mp4 srv).url
  /-- the file served for one is not replaced by the other -/
  kept : ∀ files data data',
    (b.mp4 srv).written data' ((a.mp4 srv).written data files) (a.mp4 srv).mp4Path = some data ∧
    (a.mp4 srv).written data ((b.mp4 srv).written data' files) (b.mp4 srv).mp4Path = some data'
  deletes : ∀ r, r = a ∨ r = b →
    srv.Deletes (r.mp4 srv) (r.mp4 srv).url ∧ srv.Deletes (r.mp4 srv) (escaped (r.mp4 srv).url)

/-! ## The requests' calls -/

theorem getObjectItem_of_string {obj : CJson} {n : String} (h : (valueOf obj n).isSome) :
    obj.getObjectItem (bytes n) = some (itemOf obj n) := by
  cases hitem : obj.getObjectItem (bytes n) with
  | none =>
    rw [valueOf, itemOf, hitem] at h
    cases h
  | some i => rw [itemOf_of_some hitem]

theorem deviceId_eq {obj : CJson} (hmain : (valueOf obj "mainId").isSome) (hsub : (valueOf obj "subId").isSome) :
    deviceId (itemOf obj "mainId") (itemOf obj "subId") = some (idOf obj) := by
  obtain ⟨id, hid, heq⟩ := exists_deviceId.2 ⟨hmain, hsub, (rfl : idOf obj = idOf obj)⟩
  rw [hid, heq]

theorem valueOf_eq {obj : CJson} {n : String} (h : (valueOf obj n).isSome) :
    ∃ c : CStr, valueOf obj n = some c ∧ c.text = textOf obj n := by
  obtain ⟨c, hc⟩ := Option.isSome_iff_exists.1 h
  exact ⟨c, hc, (textOf_of_some hc).symm⟩

/-- **What a playback request has converted.** -/
theorem addPlaybackDev_run (srv : MediaServer) (r : PlaybackRequest) :
    (addPlaybackDev srv.toServer r.obj).run = some (.ok (.call (.toMp4 (r.pbFile srv)))) := by
  obtain ⟨hmain, hsub, hfile, -⟩ := by simpa only [strings_cons] using r.strings
  obtain ⟨c, hc, htext⟩ := valueOf_eq hfile
  rw [addPlaybackDev, field, field, field, getObjectItem_of_string hmain, getObjectItem_of_string hsub,
    getObjectItem_of_string hfile]
  simp only [check_some_bind, deviceId_eq hmain hsub, itemOf_valuestring, hc, need_some_bind, htext]
  rfl

/-- what a deletion unlinks, or that it is refused -/
theorem delPlaybackDev_run (srv : MediaServer) {obj : CJson} (hstrings : Strings obj ["mainId", "subId", "url"]) :
    (delPlaybackDev srv.toServer obj).run = some (match playbackFile (textOf obj "url") with
      | some pbFile => .ok (.call (.unlink (srv.transMediaPath ++ pbFile)))
      | none => .error (idOf obj, storeApiRet .invalidUrlInJson)) := by
  obtain ⟨hmain, hsub, hurl, -⟩ := by simpa only [strings_cons] using hstrings
  obtain ⟨c, hc, htext⟩ := valueOf_eq hurl
  rw [delPlaybackDev, field, field, field, getObjectItem_of_string hmain, getObjectItem_of_string hsub,
    getObjectItem_of_string hurl]
  simp only [check_some_bind, deviceId_eq hmain hsub, itemOf_valuestring, hc, need_some_bind, htext]
  cases playbackFile (textOf obj "url") <;> rfl

/-- a body with any URL -/
def urlBody (url : Str) (h : 0 ∉ url) : CJson :=
  .object [idOne "mainId", idOne "subId", (CJson.str (.ofStr url h)).named "url"]

theorem valueOf_urlBody (url : Str) (h : 0 ∉ url) : valueOf (urlBody url h) "url" = some (.ofStr url h) := by
  rfl

/-- a deletion unlinks an mp4 iff the name it finds is the mp4's -/
theorem deletes_iff {srv : MediaServer} {mp4 : Mp4} {url name : Str} (hzero : 0 ∉ url)
    (hpath : mp4.mp4Path = srv.transMediaPath ++ name) : srv.Deletes mp4 url ↔ playbackFile url = some name := by
  constructor
  · intro h
    have hvalue := valueOf_urlBody url hzero
    have htext : textOf (urlBody url hzero) "url" = url := (textOf_of_some hvalue).trans (text_ofStr url hzero)
    have hstrings : Strings (urlBody url hzero) ["mainId", "subId", "url"] := by
      rw [strings_cons, strings_cons, strings_cons, hvalue]
      exact ⟨rfl, rfl, rfl, strings_nil _⟩
    have hrun := h (urlBody url hzero) hstrings htext
    rw [delPlaybackDev_run srv hstrings, htext, hpath] at hrun
    cases hfile : playbackFile url with
    | none =>
      rw [hfile] at hrun
      cases hrun
    | some pbFile =>
      rw [hfile] at hrun
      simp only [Option.some.injEq, Except.ok.injEq, Reply.call.injEq, Call.unlink.injEq, List.append_cancel_left_eq]
        at hrun
      rw [hrun]
  · intro h obj hstrings htext
    rw [delPlaybackDev_run srv hstrings, htext, h, hpath]

/-! ## Searches from the end -/

theorem rfind_of_not_mem {c : UInt8} {w : Str} (h : c ∉ w) : rfind c w = none := by
  induction w with
  | nil => rfl
  | cons d w ih =>
    rw [List.mem_cons, not_or] at h
    rw [rfind, ih h.2]
    exact if_neg (Ne.symm h.1)

theorem rfind_append {c : UInt8} {w : Str} (h : c ∉ w) (u : Str) : rfind c (u ++ c :: w) = some u.length := by
  induction u with
  | nil =>
    rw [List.nil_append, rfind, rfind_of_not_mem h]
    exact if_pos rfl
  | cons d u ih => rw [List.cons_append, rfind, ih, List.length_cons]

/-- the name in the path of a recording, whatever the directories are called -/
theorem nameInPath_eq {stem ext : Str} (hslash : 47 ∉ stem ++ 46 :: ext) (hdot : 46 ∉ ext) (dir : Str) :
    nameInPath (dir ++ 47 :: (stem ++ 46 :: ext)) = stem := by
  have hend : rfind 46 (dir ++ 47 :: (stem ++ 46 :: ext)) = some (dir.length + 1 + stem.length) := by
    have hassoc : dir ++ 47 :: (stem ++ 46 :: ext) = (dir ++ 47 :: stem) ++ 46 :: ext := by simp
    rw [hassoc, rfind_append hdot, List.length_append, List.length_cons]
    congr 1
    omega
  have hdrop : (dir ++ 47 :: (stem ++ 46 :: ext)).drop (dir.length + 1) = stem ++ 46 :: ext := by
    rw [← List.drop_drop, List.drop_left, List.drop_one, List.tail_cons]
  rw [nameInPath, rfind_append hslash, hend]
  simp only [Nat.le_add_right, if_true, hdrop, Nat.add_sub_cancel_left, List.take_left]

theorem behind_slash {w : Str} (h : 47 ∉ w) (u : Str) : ((u ++ 47 :: w).reverse.takeWhile (· ≠ 47)).reverse = w := by
  have hw : ∀ c ∈ w.reverse, decide (c ≠ 47) = true := by
    intro c hc
    refine decide_eq_true ?_
    rintro rfl
    exact h (List.mem_reverse.1 hc)
  rw [List.reverse_append, List.reverse_cons, List.append_assoc, List.takeWhile_append_of_pos hw, List.singleton_append,
    List.takeWhile_cons, if_neg (by decide), List.append_nil, List.reverse_reverse]

/-! ## The name in a URL -/

/-- a name with a blank and no '%' is taken as it is -/
theorem playbackFile_plain {w : Str} (hslash : 47 ∉ w) (hpercent : 37 ∉ w) (u : Str) :
    playbackFile (u ++ 47 :: w) = if 32 ∈ w then some w else none := by
  have hnone : strstr (bytes "%20") w = none := by
    rw [strstr_eq_none_iff]
    intro h
    exact hpercent (h.subset (by decide))
  rw [playbackFile, behind_slash hslash]
  simp only [hnone]

/-- a "%20" is made a blank -/
theorem playbackFile_escaped {d w : Str} (hslash : 47 ∉ d ++ bytes "%20" ++ w) (hpercent : 37 ∉ d) (u : Str) :
    playbackFile (u ++ 47 :: (d ++ bytes "%20" ++ w)) = some (d ++ 32 :: w) := by
  have hsome : strstr (bytes "%20") (d ++ bytes "%20" ++ w) = some d.length := by
    rw [List.append_assoc, strstr_append_of_head (by decide) hpercent, strstr_of_isPrefix (List.prefix_append _ _)]
    simp
  have hdrop : (d ++ bytes "%20" ++ w).drop (d.length + 3) = w := List.drop_left' (by simp; rfl)
  rw [playbackFile, behind_slash hslash]
  simp only [hsome, hdrop]
  rw [List.append_assoc d, List.take_left, List.append_assoc]
  rfl

/-- nothing but a "%20" is shortened -/
theorem length_le_of_playbackFile {w x : Str} (hslash : 47 ∉ w) {u : Str} (h : playbackFile (u ++ 47 :: w) = some x) :
    w.length ≤ x.length + 2 := by
  rw [playbackFile, behind_slash hslash] at h
  cases hpos : strstr (bytes "%20") w with
  | none =>
    simp only [hpos] at h
    obtain ⟨-, heq⟩ := Option.ite_none_right_eq_some.1 h
    rw [Option.some.inj heq]
    omega
  | some pos1 =>
    simp only [hpos, Option.some.injEq] at h
    obtain ⟨hle, -, -⟩ := strstr_eq_some_iff.1 hpos
    have hblank : (bytes " ").length = 1 := by decide
    rw [← h, List.length_append, List.length_append, List.length_take, List.length_drop, hblank]
    omega

/-! ## The names of recordings -/

section Names

/-- the bytes of dates and times: digits, dashes and colons -/
def NameByte (c : UInt8) : Prop := c = 45 ∨ 48 ≤ c ∧ c ≤ 58

instance (c : UInt8) : Decidable (NameByte c) := inferInstanceAs (Decidable (_ ∨ _))

theorem not_mem_of_nameBytes {s : Str} (h : ∀ c ∈ s, NameByte c) {d : UInt8} (hd : ¬ NameByte d) : d ∉ s :=
  fun hmem => hd (h d hmem)

def dayText (t : Tm) : List Char :=
  decimal ' ' 4 (t.tmYear + 1900) ++ '-' :: decimal '0' 2 (t.tmMon + 1) ++ '-' :: decimal '0' 2 t.tmMday

def clockText (t : Tm) : List Char :=
  decimal '0' 2 t.tmHour ++ ':' :: decimal '0' 2 t.tmMin ++ ':' :: decimal '0' 2 t.tmSec

/-- a name without its ".store" -/
def stem (t : Tm) : Str := Numeral.bytes (dayText t) ++ 32 :: Numeral.bytes (clockText t)

theorem bytes_fileName (t : Tm) : Numeral.bytes (fileName t) = stem t ++ 46 :: bytes "store" := by
  have hname : fileName t = dayText t ++ ' ' :: clockText t ++ '.' :: "store".toList := by
    simp [fileName, dayText, clockText]
  rw [hname, stem, Numeral.bytes, List.map_append, List.map_append, List.map_cons, List.map_cons]
  rfl

theorem nameByte_of_isDigit {c : Char} (h : c.isDigit) : NameByte c.toUInt8 := by
  have hrange : 48 ≤ c.toNat ∧ c.toNat ≤ 57 := by
    rw [Char.isDigit, Bool.and_eq_true, decide_eq_true_eq, decide_eq_true_eq] at h
    exact ⟨UInt32.le_iff_toNat_le.1 h.1, UInt32.le_iff_toNat_le.1 h.2⟩
  have hbyte := Numeral.toNat_toUInt8 (c := c) (by omega)
  right
  rw [UInt8.le_iff_toNat_le, UInt8.le_iff_toNat_le, hbyte]
  exact ⟨hrange.1, hrange.2.trans (by decide)⟩

theorem nameBytes_append {s s' : List Char} {sep : Char} (hs : ∀ c ∈ Numeral.bytes s, NameByte c)
    (hsep : NameByte sep.toUInt8) (hs' : ∀ c ∈ Numeral.bytes s', NameByte c) :
    ∀ c ∈ Numeral.bytes (s ++ sep :: s'), NameByte c := by
  intro c hc
  rw [Numeral.bytes, List.map_append, List.map_cons, List.mem_append, List.mem_cons] at hc
  rcases hc with hc | rfl | hc
  · exact hs c hc
  · exact hsep
  · exact hs' c hc

theorem nameBytes_decimal {fill : Char} {width n : ℕ} (h : fill = '0' ∨ width ≤ (Nat.toDigits 10 n).length) :
    ∀ c ∈ Numeral.bytes (decimal fill width n), NameByte c := by
  intro b hb
  obtain ⟨c, hc, rfl⟩ := List.mem_map.1 hb
  apply nameByte_of_isDigit
  rcases List.mem_append.1 hc with hc | hc
  · obtain ⟨hne, rfl⟩ := List.mem_replicate.1 hc
    rcases h with rfl | h
    · decide
    · omega
  · exact Nat.isDigit_of_mem_toDigits (by decide) (by decide) hc

/-- the years are written without blanks -/
theorem four_le_length (n : ℕ) : 4 ≤ (Nat.toDigits 10 (n + 1900)).length := by
  by_contra h
  have hle : (Nat.toDigits 10 (n + 1900)).length ≤ 3 := by omega
  have hlt : n + 1900 < 10 ^ 3 := (Nat.length_toDigits_le_iff (by decide) (by decide)).1 hle
  omega

theorem nameBytes_day (t : Tm) : ∀ c ∈ Numeral.bytes (dayText t), NameByte c := by
  have hyear : ∀ c ∈ Numeral.bytes (decimal ' ' 4 (t.tmYear + 1900)), NameByte c :=
    nameBytes_decimal (.inr (four_le_length t.tmYear))
  refine nameBytes_append (nameBytes_append hyear (by decide) ?_) (by decide) ?_
  · exact nameBytes_decimal (.inl rfl)
  · exact nameBytes_decimal (.inl rfl)

theorem nameBytes_clock (t : Tm) : ∀ c ∈ Numeral.bytes (clockText t), NameByte c := by
  refine nameBytes_append (nameBytes_append ?_ (by decide) ?_) (by decide) ?_
  · exact nameBytes_decimal (.inl rfl)
  · exact nameBytes_decimal (.inl rfl)
  · exact nameBytes_decimal (.inl rfl)

theorem not_mem_stem {t : Tm} {d : UInt8} (hd : ¬ NameByte d) (hblank : d ≠ 32) : d ∉ stem t := by
  rw [stem, List.mem_append, List.mem_cons, not_or, not_or]
  exact ⟨not_mem_of_nameBytes (nameBytes_day t) hd, hblank, not_mem_of_nameBytes (nameBytes_clock t) hd⟩

theorem length_decimal_le {fill : Char} {width n k : ℕ} (hwidth : width ≤ k) (hpos : 0 < k) (hn : n < 10 ^ k) :
    (decimal fill width n).length ≤ k := by
  have hdigits : (Nat.toDigits 10 n).length ≤ k := (Nat.length_toDigits_le_iff (by decide) hpos).2 hn
  rw [decimal, List.length_append, List.length_replicate]
  omega

theorem length_stem_le (r : PlaybackRequest) : (stem r.start).length ≤ 25 := by
  obtain ⟨hmon, hmday, hhour, hmin, hsec⟩ := r.twoDigits
  have hyear : (decimal ' ' 4 (r.start.tmYear + 1900)).length ≤ 10 :=
    length_decimal_le (by decide) (by decide) (by have := r.year; omega)
  have htwo : ∀ {n : ℕ}, n < 100 → (decimal '0' 2 n).length ≤ 2 := fun h => length_decimal_le le_rfl (by decide) h
  have hmon' : (decimal '0' 2 (r.start.tmMon + 1)).length ≤ 2 := htwo hmon
  have hmday' : (decimal '0' 2 r.start.tmMday).length ≤ 2 := htwo hmday
  have hhour' : (decimal '0' 2 r.start.tmHour).length ≤ 2 := htwo hhour
  have hmin' : (decimal '0' 2 r.start.tmMin).length ≤ 2 := htwo hmin
  have hsec' : (decimal '0' 2 r.start.tmSec).length ≤ 2 := htwo hsec
  simp only [stem, Numeral.bytes, dayText, clockText, List.length_append, List.length_cons, List.length_map]
  omega

end Names

/-! ## The URL of a recording -/

section Url

variable (srv : MediaServer)

/-- host and port -/
def MediaServer.authority : Str := cText srv.downloadMediaIp ++ bytes ":" ++ intText srv.playbackPort

theorem cText_of_not_mem {s : Str} (h : 0 ∉ s) : cText s = s := by
  rw [cText, List.takeWhile_eq_self_iff]
  intro c hc
  refine decide_eq_true ?_
  rintro rfl
  exact h hc

theorem urlText_eq {name : Str} (h : 0 ∉ name) : srv.urlText name =
    (bytes "http:/" ++ 47 :: srv.authority) ++ 47 :: (name ++ bytes ".mp4") := by
  have hhttp : bytes "http://" = bytes "http:/" ++ [47] := by decide
  have hslash : bytes "/" = [47] := by decide
  rw [MediaServer.urlText, cText_of_not_mem h, hhttp, hslash, MediaServer.authority]
  simp only [List.append_assoc, List.cons_append, List.nil_append]

theorem nameBytes_intText (n : ℤ) : ∀ c ∈ intText n, NameByte c := by
  have hdigits : ∀ k, ∀ c ∈ Numeral.bytes (Nat.toDigits 10 k), NameByte c := by
    intro k b hb
    obtain ⟨c, hc, rfl⟩ := List.mem_map.1 hb
    exact nameByte_of_isDigit (Nat.isDigit_of_mem_toDigits (by decide) (by decide) hc)
  rw [intText]
  split_ifs
  · exact hdigits _
  · intro c hc
    rcases List.mem_cons.1 hc with rfl | hc
    · decide
    · exact hdigits _ c hc

theorem not_mem_authority {d : UInt8} (hip : d ∉ cText srv.downloadMediaIp) (hd : ¬ NameByte d) :
    d ∉ srv.authority := by
  have hcolon : d ∉ bytes ":" := by
    intro h
    obtain rfl : d = 58 := List.mem_singleton.1 h
    exact hd (by decide)
  rw [MediaServer.authority, List.mem_append, List.mem_append, not_or, not_or]
  exact ⟨⟨hip, hcolon⟩, not_mem_of_nameBytes (nameBytes_intText _) hd⟩

theorem slash_not_mem_authority : 47 ∉ srv.authority :=
  not_mem_authority srv (fun h => srv.no_slash (List.takeWhile_subset _ h)) (by decide)

theorem zero_not_mem_authority : 0 ∉ srv.authority := by
  refine not_mem_authority srv (fun h => ?_) (by decide)
  exact absurd (List.mem_takeWhile_imp h) (by decide)

variable (r : PlaybackRequest)

/-- the name of the mp4 -/
def PlaybackRequest.mp4Name : Str := stem r.start ++ bytes ".mp4"

theorem mp4_eq : r.mp4 srv = ⟨srv.transMediaPath ++ r.mp4Name, (srv.urlText (stem r.start)).take 127⟩ := by
  have hname : nameInPath (r.pbFile srv) = stem r.start := by
    have hslash : bytes "/" = [47] := by decide
    rw [PlaybackRequest.pbFile, r.file, bytes_fileName, hslash, List.append_assoc _ [47], List.singleton_append]
    refine nameInPath_eq ?_ (by decide) _
    rw [List.mem_append, not_or]
    exact ⟨not_mem_stem (by decide) (by decide), by decide⟩
  rw [PlaybackRequest.mp4, MediaServer.translateToMp4, hname, List.append_assoc]
  rfl

theorem not_mem_mp4Name {d : UInt8} (hd : ¬ NameByte d) (hrest : d ∉ bytes " .mp4") : d ∉ r.mp4Name := by
  have hsplit : bytes " .mp4" = 32 :: bytes ".mp4" := by decide
  rw [hsplit, List.mem_cons, not_or] at hrest
  rw [PlaybackRequest.mp4Name, List.mem_append, not_or]
  exact ⟨not_mem_stem hd hrest.1, hrest.2⟩

theorem length_mp4Name_le : r.mp4Name.length ≤ 29 := by
  have hstem := length_stem_le r
  have hext : (bytes ".mp4").length = 4 := by decide
  rw [PlaybackRequest.mp4Name, List.length_append, hext]
  omega

/-- the whole URL -/
def PlaybackRequest.fullUrl : Str := srv.urlText (stem r.start)

theorem fullUrl_eq : r.fullUrl srv = (bytes "http:/" ++ 47 :: srv.authority) ++ 47 :: r.mp4Name :=
  urlText_eq srv (not_mem_stem (by decide) (by decide))

theorem zero_not_mem_fullUrl : 0 ∉ r.fullUrl srv := by
  have hname : 0 ∉ r.mp4Name := not_mem_mp4Name r (by decide) (by decide)
  have hhttp : 0 ∉ bytes "http:/" := by decide
  have hauthority := zero_not_mem_authority srv
  simp only [fullUrl_eq, List.mem_append, List.mem_cons, not_or]
  exact ⟨⟨hhttp, by decide, hauthority⟩, by decide, hname⟩

theorem zero_not_mem_escaped {url : Str} (h : 0 ∉ url) : 0 ∉ escaped url := by
  intro hmem
  obtain ⟨c, hc, hzero⟩ := List.mem_flatMap.1 hmem
  split_ifs at hzero
  · exact absurd hzero (by decide)
  · exact h (List.mem_singleton.1 hzero ▸ hc)

/-- **A whole URL gives the name back.** -/
theorem playbackFile_fullUrl : playbackFile (r.fullUrl srv) = some r.mp4Name := by
  have hblank : 32 ∈ r.mp4Name := by
    rw [PlaybackRequest.mp4Name, stem, List.append_assoc]
    exact List.mem_append_right _ List.mem_cons_self
  rw [fullUrl_eq, playbackFile_plain (not_mem_mp4Name r (by decide) (by decide))
    (not_mem_mp4Name r (by decide) (by decide)), if_pos hblank]

theorem escaped_append (s s' : Str) : escaped (s ++ s') = escaped s ++ escaped s' := List.flatMap_append

theorem escaped_of_not_mem {s : Str} (h : 32 ∉ s) : escaped s = s := by
  induction s with
  | nil => rfl
  | cons c s ih =>
    rw [List.mem_cons, not_or] at h
    rw [escaped, List.flatMap_cons, if_neg (Ne.symm h.1), List.singleton_append]
    exact congrArg (c :: ·) (ih h.2)

theorem playbackFile_escaped_fullUrl : playbackFile (escaped (r.fullUrl srv)) = some r.mp4Name := by
  have hday : 32 ∉ Numeral.bytes (dayText r.start) := not_mem_of_nameBytes (nameBytes_day _) (by decide)
  have hclock : 32 ∉ Numeral.bytes (clockText r.start) ++ bytes ".mp4" := by
    rw [List.mem_append, not_or]
    exact ⟨not_mem_of_nameBytes (nameBytes_clock _) (by decide), by decide⟩
  have hname : escaped r.mp4Name =
      Numeral.bytes (dayText r.start) ++ bytes "%20" ++ (Numeral.bytes (clockText r.start) ++ bytes ".mp4") := by
    rw [PlaybackRequest.mp4Name, stem, List.append_assoc, List.cons_append, escaped_append, escaped_of_not_mem hday,
      escaped, List.flatMap_cons, if_pos rfl, List.append_assoc]
    exact congrArg (_ ++ ·) (congrArg (_ ++ ·) (escaped_of_not_mem hclock))
  have hslash : 47 ∉ Numeral.bytes (dayText r.start) ++ bytes "%20" ++
      (Numeral.bytes (clockText r.start) ++ bytes ".mp4") := by
    simp only [List.mem_append, not_or]
    exact ⟨⟨not_mem_of_nameBytes (nameBytes_day _) (by decide), by decide⟩,
      not_mem_of_nameBytes (nameBytes_clock _) (by decide), by decide⟩
  have hcons : escaped (47 :: r.mp4Name) = 47 :: escaped r.mp4Name := rfl
  rw [fullUrl_eq, escaped_append, hcons, hname,
    playbackFile_escaped hslash (not_mem_of_nameBytes (nameBytes_day _) (by decide)), PlaybackRequest.mp4Name, stem]
  simp only [List.append_assoc, List.cons_append]

/-- **A cut URL does not.** -/
theorem playbackFile_cut (h : 127 < (r.fullUrl srv).length) :
    playbackFile ((r.fullUrl srv).take 127) ≠ some r.mp4Name := by
  intro hfile
  have hhttp : (bytes "http:/").length = 6 := by decide
  rw [fullUrl_eq] at h hfile
  set head := bytes "http:/" ++ 47 :: srv.authority with hhead
  have hlen : head.length = 7 + srv.authority.length := by
    rw [hhead, List.length_append, List.length_cons, hhttp]
    omega
  rw [List.length_append, List.length_cons] at h
  by_cases hcut : head.length < 127
  · -- the cut goes through the name
    have hk : 127 - head.length = (126 - head.length) + 1 := by omega
    have hsub : ∀ {d}, d ∉ r.mp4Name → d ∉ r.mp4Name.take (126 - head.length) := fun hd hmem =>
      hd (List.mem_of_mem_take hmem)
    rw [List.take_append, List.take_of_length_le hcut.le, hk, List.take_succ_cons,
      playbackFile_plain (hsub (not_mem_mp4Name r (by decide) (by decide)))
        (hsub (not_mem_mp4Name r (by decide) (by decide)))] at hfile
    have hsame := congrArg List.length (Option.some.inj (Option.ite_none_right_eq_some.1 hfile).2)
    rw [List.length_take] at hsame
    omega
  · -- the cut goes through the host or the port, and what is left of them is longer than any name
    have hauthority : 47 ∉ srv.authority.take 120 := fun hmem => slash_not_mem_authority srv (List.mem_of_mem_take hmem)
    have htake : head.take 127 = bytes "http:/" ++ 47 :: srv.authority.take 120 := by
      rw [hhead, List.take_append, hhttp]
      rfl
    rw [List.take_append_of_le_length (not_lt.1 hcut), htake] at hfile
    have hlong := length_le_of_playbackFile hauthority hfile
    have hshort := length_mp4Name_le r
    rw [List.length_take] at hlong
    omega

end Url

/-! ## Two requests -/

section Two

variable {srv : MediaServer} {a b : PlaybackRequest}

/-- the URL gets the mp4 deleted, as it is and with "%20", iff it is whole -/
theorem deletes_url_iff (r : PlaybackRequest) :
    (srv.Deletes (r.mp4 srv) (r.mp4 srv).url ∧ srv.Deletes (r.mp4 srv) (escaped (r.mp4 srv).url)) ↔
      (r.fullUrl srv).length ≤ 127 := by
  have hzero : 0 ∉ (r.fullUrl srv).take 127 := fun h => zero_not_mem_fullUrl srv r (List.mem_of_mem_take h)
  have hpath : (r.mp4 srv).mp4Path = srv.transMediaPath ++ r.mp4Name := by rw [mp4_eq]
  have hurl : (r.mp4 srv).url = (r.fullUrl srv).take 127 := by rw [mp4_eq, PlaybackRequest.fullUrl]
  rw [deletes_iff (hurl ▸ hzero) hpath, deletes_iff (zero_not_mem_escaped (hurl ▸ hzero)) hpath, hurl]
  constructor
  · rintro ⟨h, -⟩
    by_contra hcut
    exact playbackFile_cut srv r (not_le.1 hcut) h
  · intro h
    rw [List.take_of_length_le h]
    exact ⟨playbackFile_fullUrl srv r, playbackFile_escaped_fullUrl srv r⟩

theorem file_eq_iff : textOf a.obj "file" = textOf b.obj "file" ↔ stem a.start = stem b.start := by
  rw [a.file, b.file, bytes_fileName, bytes_fileName, List.append_cancel_right_eq]

theorem mp4Path_eq_iff : (a.mp4 srv).mp4Path = (b.mp4 srv).mp4Path ↔ textOf a.obj "file" = textOf b.obj "file" := by
  rw [file_eq_iff, mp4_eq, mp4_eq, List.append_cancel_left_eq, PlaybackRequest.mp4Name, PlaybackRequest.mp4Name,
    List.append_cancel_right_eq]

theorem fullUrl_inj (h : a.fullUrl srv = b.fullUrl srv) : stem a.start = stem b.start := by
  rw [fullUrl_eq, fullUrl_eq, List.append_cancel_left_eq, List.cons.injEq, PlaybackRequest.mp4Name,
    PlaybackRequest.mp4Name, List.append_cancel_right_eq] at h
  exact h.2

/-- **When two requests stand apart.** -/
theorem stands_apart_iff (srv : MediaServer) (a b : PlaybackRequest) : StandApart srv a b ↔
    textOf a.obj "file" ≠ textOf b.obj "file" ∧ (a.fullUrl srv).length ≤ 127 ∧ (b.fullUrl srv).length ≤ 127 := by
  constructor
  · intro h
    refine ⟨fun heq => h.paths (mp4Path_eq_iff.2 heq), ?_, ?_⟩
    · exact (deletes_url_iff a).1 (h.deletes a (.inl rfl))
    · exact (deletes_url_iff b).1 (h.deletes b (.inr rfl))
  · rintro ⟨hne, ha, hb⟩
    have hpaths : (a.mp4 srv).mp4Path ≠ (b.mp4 srv).mp4Path := fun heq => hne (mp4Path_eq_iff.1 heq)
    refine ⟨hpaths, ?_, ?_, ?_⟩
    · rw [mp4_eq, mp4_eq]
      change (a.fullUrl srv).take 127 ≠ (b.fullUrl srv).take 127
      rw [List.take_of_length_le ha, List.take_of_length_le hb]
      exact fun heq => hne (file_eq_iff.2 (fullUrl_inj heq))
    · intro files data data'
      constructor
      · rw [Mp4.written, Function.update_of_ne hpaths, Mp4.written, Function.update_self]
      · rw [Mp4.written, Function.update_of_ne hpaths.symm, Mp4.written, Function.update_self]
    · rintro r (rfl | rfl)
      · exact (deletes_url_iff r).2 ha
      · exact (deletes_url_iff r).2 hb

end Two

/-! ## Two cameras, and a long host -/

/-- 1 March 2024, 00:59 and some seconds -/
def march (sec : ℕ) : Tm := ⟨124, 2, 1, 0, 59, sec⟩

theorem march_twoDigits {sec : ℕ} (hsec : sec < 60) : (LocalTm.ofTm (march sec)).TwoDigits :=
  ⟨(by decide : 2 + 1 < 100), (by decide : 1 < 100), (by decide : 0 < 100), (by decide : 59 < 100),
    (hsec.trans (by decide) : sec < 100)⟩

theorem march_year (sec : ℕ) : (march sec).tmYear < 2 ^ 31 := (by decide : 124 < 2 ^ 31)

/-- a recording that began then -/
def marchRequest (mainId file : String) (sec : ℕ) (hid : 0 ∉ bytes mainId) (hfile : 0 ∉ bytes file) (hsec : sec < 60)
    (hname : bytes file = Numeral.bytes (fileName (march sec))) : PlaybackRequest where
  obj := .object [word "mainId" mainId hid, idOne "subId", word "file" file hfile]
  strings := by
    rw [strings_cons, strings_cons, strings_cons]
    exact ⟨rfl, rfl, rfl, strings_nil _⟩
  start := march sec
  twoDigits := march_twoDigits hsec
  year := march_year sec
  file := ((textOf_of_some rfl).trans (text_ofStr _ hfile)).trans hname

/-- camera 1-1 -/
def gateRequest : PlaybackRequest :=
  marchRequest "1" "2024-03-01 00:59:30.store" 30 zero_not_mem_one (by decide) (by decide) (by decide +kernel)

/-- camera 2-1, the same second -/
def yardRequest : PlaybackRequest :=
  marchRequest "2" "2024-03-01 00:59:30.store" 30 (by decide) (by decide) (by decide) (by decide +kernel)

/-- camera 1-1, the next file -/
def laterRequest : PlaybackRequest :=
  marchRequest "1" "2024-03-01 00:59:40.store" 40 zero_not_mem_one (by decide) (by decide) (by decide +kernel)

/-- a service whose mp4s are offered under a host -/
def hostServer (host : Str) (h : 47 ∉ host) : MediaServer where
  db := tableDb
  codec := { parse := fun _ => none, print := fun _ => [], parse_nil := rfl }
  storePath := bytes "/store/"
  transMediaPath := bytes "/media/"
  copy := id
  copy_text := text_id
  lastError := ""
  downloadMediaIp := host
  playbackPort := 8090
  no_slash := h

/-- an address, and a name of 100 bytes -/
def lanServer : MediaServer := hostServer (bytes "192.168.1.2") (by decide)

def farServer : MediaServer := hostServer (List.replicate 100 97) (by decide)

/-- **Two cameras with a file of the same second have one mp4 and one URL; behind a long host, two files of one camera
have one URL, and deleting by it unlinks neither.** -/
theorem shared_url : idOf gateRequest.obj ≠ idOf yardRequest.obj ∧
    gateRequest.mp4 lanServer =
      ⟨bytes "/media/2024-03-01 00:59:30.mp4", bytes "http://192.168.1.2:8090/2024-03-01 00:59:30.mp4"⟩ ∧
    yardRequest.mp4 lanServer = gateRequest.mp4 lanServer ∧ ¬ StandApart lanServer gateRequest yardRequest ∧
    textOf gateRequest.obj "file" ≠ textOf laterRequest.obj "file" ∧
    (gateRequest.mp4 farServer).url = (laterRequest.mp4 farServer).url ∧
    playbackFile (gateRequest.mp4 farServer).url = some (bytes "2024-03-01 00:") ∧
    ¬ StandApart farServer gateRequest laterRequest := by
  have hsame : yardRequest.mp4 lanServer = gateRequest.mp4 lanServer := by decide +kernel
  have hcut : (gateRequest.mp4 farServer).url = (laterRequest.mp4 farServer).url := by decide +kernel
  refine ⟨by decide +kernel, by decide +kernel, hsame, fun h => h.urls (by rw [hsame]), by decide +kernel, hcut,
    by decide +kernel, fun h => h.urls hcut⟩

end StoreService.Http
