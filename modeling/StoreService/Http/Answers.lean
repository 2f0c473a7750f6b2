/-
Schedules as they are posted, shown and followed (http.cpp).

A schedule comes in a request as JSON. `cJSON_Print` makes a text of it, which is stored; `ParseSchedule` makes the
table of the recording thread from this text, and `GetSchedule` a response from it, which leaves the service as text
again. A client that parses the response finds the days under their names.

Model: `scheduleBody`, `listBody` and the others are the items the handlers build, `shownDay` and `listedFiles` what a
client reads in an item. Texts are made and read with the cJSON model; the registries, requests and replies are those of
the handlers.

- `shown_is_followed`: in every state that start-up and requests lead to, what a client reads in the answer of
  `GetSchedule` are the intervals that the thread of the camera follows, weekday by weekday.
- `posted_is_shown`: a schedule in the body of an add request is answered as it was posted.
- `files_as_queried`: the lists of files are read as the rows they were made from.
-/
import StoreService.Core.Runs
import StoreService.Store.Query
import StoreService.Http.Handlers
import StoreService.Json.Codec

namespace StoreService.Http

open StoreService.Json StoreService.Schedule StoreService.Check StoreService.Runs StoreService.Keyed
open StoreService.Store (MysqlStoreInfo CameraRow SortedRows startTime queryRange queryRange_offTable rowsIn_all
  rangeAnswer)
open StoreService.JsonText (Doubles Item CText IsCJson Denotes Integral IntegralItems IntegralMembers cJSONParse
  cJSONPrint printed)

/-! ## The items of the responses -/

section Bodies
variable {F : Type}

/-- `cJSON_CreateString` of a std::string -/
def str (s : Str) : Item F := .string (.ofBytes s)

/-- `cJSON_AddItemToObject` -/
def named (name : String) (item : Item F) : CText × Item F := (.ofBytes (bytes name), item)

def dayName : Weekday → String
  | .monday => "monday"
  | .tuesday => "tuesday"
  | .wednesday => "wednesday"
  | .thursday => "thursday"
  | .friday => "friday"
  | .saturday => "saturday"
  | .sunday => "sunday"

def weekdays : List Weekday := [.monday, .tuesday, .wednesday, .thursday, .friday, .saturday, .sunday]

/-- `scheduleObj` and `resObj` of `GetSchedule`: a block for each weekday -/
def scheduleBody (mainId subId : Str) (days : List (List Str)) : Item F :=
  .object [named "code" (.bool true), named "schedule" (.object
    ([named "mainId" (str mainId), named "subId" (str subId)] ++
      weekdays.map fun d => named (dayName d) (.array ((days.getD (postedIndex d) []).map str))))]

/-- `recFileObj` -/
def fileBody (row : MysqlStoreInfo) : Item F :=
  .object [named "name" (str row.fileName), named "type" (str row.fileType), named "status" (str row.fileStatus),
    named "backup" (str row.fileBackup)]

def listBody (rows : List MysqlStoreInfo) : Item F :=
  .object [named "code" (.bool true), named "message" (.array (rows.map fileBody))]

/-- the rows that `GetRecodeList` shows -/
def recodeRows (recodeType : Str) (recordeList : List MysqlStoreInfo) : List MysqlStoreInfo :=
  recordeList.filter (·.fileType = recodeType)

/-- the rows that `GetBackupList` shows -/
def backupRows (recordeList : List MysqlStoreInfo) : List MysqlStoreInfo :=
  recordeList.filter (·.fileBackup = bytes "yes")

/-! ## What a client reads -/

/-- a member of an object -/
def member (name : String) : Item F → Option (Item F)
  | .object members => (members.find? fun m => m.1.bytes = bytes name).map Prod.snd
  | _ => none

/-- the strings of an array -/
def strings (item : Item F) : Option (List Str) := item.children.mapM fun child => child.text.map CText.bytes

def shownDay (body : Item F) (d : Weekday) : Option (List Str) := do
  let schedule ← member "schedule" body
  let day ← member (dayName d) schedule
  strings day

def textMember (name : String) (item : Item F) : Option Str := do
  let child ← member name item
  child.text.map CText.bytes

def listedFile (item : Item F) : Option MysqlStoreInfo := do
  let name ← textMember "name" item
  let type ← textMember "type" item
  let status ← textMember "status" item
  let backup ← textMember "backup" item
  return ⟨name, type, status, backup⟩

def listedFiles (body : Item F) : Option (List MysqlStoreInfo) := do
  let message ← member "message" body
  message.children.mapM listedFile

end Bodies

/-- the second of day written from place `i` of a text on -/
def textSecond (t : Str) (i : ℕ) : ℤ :=
  let at_ (j : ℕ) := (t ++ [0]).getD (i + j) 0
  number (at_ 0) (at_ 1) * 3600 + number (at_ 3) (at_ 4) * 60 + number (at_ 6) (at_ 7)

/-- first and last second of an interval -/
def textSpan (t : Str) : ℤ × ℤ := (textSecond t 0, textSecond t 9)

/-! ## Bodies are read as they were built -/

section Read
variable {D : Doubles}

theorem integralItems_iff {items : List (Item D.F)} : IntegralItems D items ↔ ∀ i ∈ items, Integral D i := by
  induction items with
  | nil => simp [IntegralItems]
  | cons i items ih => rw [IntegralItems, ih, List.forall_mem_cons]

theorem integralMembers_iff {members : List (CText × Item D.F)} :
    IntegralMembers D members ↔ ∀ m ∈ members, Integral D m.2 := by
  induction members with
  | nil => simp [IntegralMembers]
  | cons m members ih => rw [IntegralMembers, ih, List.forall_mem_cons]

theorem integral_str (s : Str) : Integral D (str s) := by
  rw [str, Integral]
  trivial

theorem integral_strs (ss : List Str) : Integral D (.array (ss.map str)) := by
  rw [Integral, integralItems_iff]
  intro i hi
  obtain ⟨s, -, rfl⟩ := List.mem_map.1 hi
  exact integral_str s

theorem integral_object {members : List (CText × Item D.F)} (h : ∀ m ∈ members, Integral D m.2) :
    Integral D (.object members) := by
  rwa [Integral, integralMembers_iff]

theorem integral_bool (b : Bool) : Integral D (.bool b) := by
  rw [Integral]
  trivial

theorem integral_scheduleBody (mainId subId : Str) (days : List (List Str)) :
    Integral D (scheduleBody mainId subId days) := by
  refine integral_object (List.forall_mem_cons.2 ⟨integral_bool true, List.forall_mem_singleton.2 ?_⟩)
  refine integral_object fun m hm => ?_
  rcases List.mem_append.1 hm with hm | hm
  · rcases List.mem_cons.1 hm with rfl | hm
    · exact integral_str mainId
    · rw [List.mem_singleton.1 hm]
      exact integral_str subId
  · obtain ⟨d, -, rfl⟩ := List.mem_map.1 hm
    exact integral_strs _

theorem integral_fileBody (row : MysqlStoreInfo) : Integral D (fileBody row) := by
  refine integral_object ?_
  simp only [List.forall_mem_cons, named]
  exact ⟨integral_str _, integral_str _, integral_str _, integral_str _, fun m hm => absurd hm List.not_mem_nil⟩

theorem integral_listBody (rows : List MysqlStoreInfo) : Integral D (listBody rows) := by
  refine integral_object (List.forall_mem_cons.2 ⟨integral_bool true, List.forall_mem_singleton.2 ?_⟩)
  change Integral D (.array (rows.map fileBody))
  rw [Integral, integralItems_iff]
  intro i hi
  obtain ⟨row, -, rfl⟩ := List.mem_map.1 hi
  exact integral_fileBody row

theorem bytes_ofBytes {s : Str} (h : 0 ∉ s) : (CText.ofBytes s).bytes = s :=
  congrArg CText.bytes (JsonText.ofBytes_bytes ⟨s, h⟩)

/-- a response of the service, as text, is parsed to what it was made of -/
theorem parsed_response {body : Item D.F} (h : Integral D body) :
    ∃ text : CText, cJSONPrint D body = some text.bytes ∧ cJSONParse D text = pure body :=
  ⟨printed D true body, JsonText.printValue_eq true 0 body, JsonText.cJSONParse_printed true h⟩

theorem strings_strs {ss : List Str} (h : ∀ s ∈ ss, 0 ∉ s) : strings (.array (ss.map str) : Item D.F) = some ss := by
  rw [strings]
  change ((ss.map str).mapM fun child : Item D.F => child.text.map CText.bytes) = some ss
  induction ss with
  | nil => rfl
  | cons s ss ih =>
    obtain ⟨hs, hss⟩ := List.forall_mem_cons.1 h
    have hhead : (str s : Item D.F).text.map CText.bytes = some s := congrArg some (bytes_ofBytes hs)
    rw [List.map_cons, List.mapM_cons, hhead, ih hss]
    rfl

theorem member_eq (name : String) (v : Item D.F) (ms : List (CText × Item D.F))
    (h : (CText.ofBytes (bytes name)).bytes = bytes name) : member name (.object (named name v :: ms)) = some v := by
  have hfind : ((named name v :: ms).find? fun m => m.1.bytes = bytes name) = some (named name v) :=
    List.find?_cons_of_pos (decide_eq_true h)
  rw [member, hfind]
  rfl

theorem member_ne {name n : String} (v : Item D.F) (ms : List (CText × Item D.F))
    (h : (CText.ofBytes (bytes n)).bytes ≠ bytes name) :
    member name (.object (named n v :: ms)) = member name (.object ms) := by
  have hfind : ((named n v :: ms).find? fun m => m.1.bytes = bytes name) = ms.find? fun m => m.1.bytes = bytes name :=
    List.find?_cons_of_neg fun heq => h (of_decide_eq_true heq)
  rw [member, member, hfind]

/-- the blocks have different names, none of them that of an id -/
theorem find_dayName (d : Weekday) :
    (weekdays.find? fun e => (CText.ofBytes (bytes (dayName e))).bytes = bytes (dayName d)) = some d ∧
      (CText.ofBytes (bytes "mainId")).bytes ≠ bytes (dayName d) ∧
      (CText.ofBytes (bytes "subId")).bytes ≠ bytes (dayName d) := by
  cases d <;> decide +kernel

/-- the block of a weekday -/
theorem shownDay_scheduleBody (mainId subId : Str) {days : List (List Str)} (h : ∀ day ∈ days, ∀ s ∈ day, 0 ∉ s)
    {d : Weekday} {day : List Str} (hd : days[postedIndex d]? = some day) :
    shownDay (scheduleBody mainId subId days : Item D.F) d = some day := by
  have hday : days.getD (postedIndex d) [] = day := by rw [List.getD_eq_getElem?_getD, hd, Option.getD_some]
  have hstrings := strings_strs (D := D) (h day (List.mem_of_getElem? hd))
  obtain ⟨hfind, hmain, hsub⟩ := find_dayName d
  have hblock : member (dayName d) (.object (weekdays.map fun d => named (dayName d)
      (.array ((days.getD (postedIndex d) []).map str) : Item D.F))) = some (.array (day.map str)) := by
    rw [member, List.find?_map]
    change (Option.map _ (weekdays.find? fun e =>
      (CText.ofBytes (bytes (dayName e))).bytes = bytes (dayName d))).map _ = _
    rw [hfind, ← hday]
    rfl
  rw [shownDay, scheduleBody, member_ne _ _ (by decide +kernel), member_eq _ _ _ (by decide +kernel)]
  change (member (dayName d) (.object (named "mainId" _ :: named "subId" _ :: weekdays.map _))).bind strings = some day
  rw [member_ne _ _ hmain, member_ne _ _ hsub, hblock]
  exact hstrings

/-- the fields of a row are C strings -/
def NoZero (row : MysqlStoreInfo) : Prop :=
  0 ∉ row.fileName ∧ 0 ∉ row.fileType ∧ 0 ∉ row.fileStatus ∧ 0 ∉ row.fileBackup

instance (row : MysqlStoreInfo) : Decidable (NoZero row) := inferInstanceAs (Decidable (_ ∧ _))

theorem listedFile_fileBody {row : MysqlStoreInfo} (h : NoZero row) :
    listedFile (fileBody row : Item D.F) = some row := by
  obtain ⟨hname, htype, hstatus, hbackup⟩ := h
  have htext : ∀ {s : Str}, 0 ∉ s → (str s : Item D.F).text.map CText.bytes = some s := fun hs =>
    congrArg some (bytes_ofBytes hs)
  have h1 : textMember "name" (fileBody row : Item D.F) = some row.fileName := by
    rw [textMember, fileBody, member_eq _ _ _ (by decide +kernel)]
    exact htext hname
  have h2 : textMember "type" (fileBody row : Item D.F) = some row.fileType := by
    rw [textMember, fileBody, member_ne _ _ (by decide +kernel), member_eq _ _ _ (by decide +kernel)]
    exact htext htype
  have h3 : textMember "status" (fileBody row : Item D.F) = some row.fileStatus := by
    rw [textMember, fileBody, member_ne _ _ (by decide +kernel), member_ne _ _ (by decide +kernel),
      member_eq _ _ _ (by decide +kernel)]
    exact htext hstatus
  have h4 : textMember "backup" (fileBody row : Item D.F) = some row.fileBackup := by
    rw [textMember, fileBody, member_ne _ _ (by decide +kernel), member_ne _ _ (by decide +kernel),
      member_ne _ _ (by decide +kernel), member_eq _ _ _ (by decide +kernel)]
    exact htext hbackup
  rw [listedFile, h1, h2, h3, h4]
  rfl

end Read

/-! ## Intervals in texts -/

theorem length_text (c : CStr) : c.text.length = c.len := by rw [CStr.text, List.length_map, List.length_range]

/-- up to the terminator, the memory of a C string is its text -/
theorem getD_text (c : CStr) {j : ℕ} (h : j ≤ c.len) : (c.text ++ [0]).getD j 0 = c.mem j := by
  rw [List.getD_eq_getElem?_getD]
  rcases Nat.lt_or_ge j c.len with hlt | hge
  · rw [List.getElem?_append_left (by rw [length_text]; exact hlt), CStr.text, List.getElem?_map,
      List.getElem?_range hlt]
    rfl
  · obtain rfl : j = c.len := Nat.le_antisymm h hge
    rw [List.getElem?_append_right (by rw [length_text]), length_text, Nat.sub_self, c.nul]
    rfl

theorem textSecond_text {c : CStr} {i : ℕ} (h : i + 7 ≤ c.len) : textSecond c.text i = postedSecond c i := by
  have hat : ∀ j ≤ 7, (c.text ++ [0]).getD (i + j) 0 = c.mem (i + j) := fun j hj => getD_text c (by omega)
  simp only [textSecond, postedSecond, hat 1 (by decide), hat 3 (by decide), hat 4 (by decide), hat 6 (by decide),
    hat 7 (by decide)]
  rw [hat 0 (by decide), Nat.add_zero]

theorem textSpan_text {c : CStr} (h : 16 ≤ c.text.length) :
    textSpan c.text = (postedSecond c 0, postedSecond c 9) := by
  rw [length_text] at h
  rw [textSpan, textSecond_text (by omega), textSecond_text (by omega)]

/-- the intervals of a day, from its texts -/
theorem postedDay_texts {day : CJson} {texts : List Str}
    (h : (day.child.mapM fun item => item.valuestring.map CStr.text) = some texts) (hlen : ∀ t ∈ texts, 16 ≤ t.length) :
    postedDay day = texts.map textSpan := by
  have hall := mapM_option h
  rw [postedDay]
  clear h
  generalize day.child = items at hall
  induction hall with
  | nil => rfl
  | @cons item t items texts hitem _ ih =>
    obtain ⟨ht, hts⟩ := List.forall_mem_cons.1 hlen
    obtain ⟨c, hc, rfl⟩ := Option.map_eq_some_iff.1 hitem
    rw [List.filterMap_cons, hc, Option.map_some, ih hts, List.map_cons, textSpan_text ht]

theorem parseDay_texts {day : CJson} {texts : List Str} (h : parseDay day = .ok texts) :
    (day.child.mapM fun item => item.valuestring.map CStr.text) = some texts := by
  unfold parseDay at h
  split_ifs at h
  have hall := mapM_except h
  clear h
  generalize day.child = items at hall
  induction hall with
  | nil => rfl
  | @cons item t items texts hitem _ ih =>
    unfold parseItem at hitem
    cases hvalue : item.valuestring with
    | none => simp [hvalue] at hitem
    | some c =>
      rw [hvalue] at hitem
      dsimp only at hitem
      split_ifs at hitem
      obtain rfl := Except.ok.inj hitem
      rw [List.mapM_cons, hvalue, ih]
      rfl

/-- the days of an accepted text -/
theorem days_of_accepted {J : Codec} {json : Str} {w : Week} (h : parseSchedule J json = some (.ok w)) {obj : CJson}
    (hparse : J.parse json = some obj) : obj.getArraySize = 7 ∧ ∃ week, obj.child.mapM parseDay = .ok week := by
  simp only [parseSchedule, hparse] at h
  split_ifs at h with h7
  · cases Option.some.inj h
  · refine ⟨not_not.1 h7, ?_⟩
    cases hdays : obj.child.mapM parseDay with
    | error e =>
      rw [hdays] at h
      cases Option.some.inj h
    | ok week => exact ⟨week, rfl⟩

/-- **Shown and followed.** Where a text is accepted, the strings of its days are the intervals of the table. -/
theorem accepted_shown {J : Codec} {json : Str} {w : Week} (h : parseSchedule J json = some (.ok w)) {schePars : CJson}
    (hparse : J.parse json = some schePars) (d : Weekday) : ∃ day, showDay schePars (postedIndex d) = some day ∧
      (w.day d).map Interval.span = day.map textSpan := by
  obtain ⟨obj, hobj, hposted⟩ := parseSchedule_posted h
  obtain rfl : schePars = obj := Option.some.inj (hparse.symm.trans hobj)
  have hover : ¬ Overruns J json := fun ho => by
    rw [(parseSchedule_eq_none_iff J json).2 ho] at h
    cases h
  obtain ⟨h7, week, hweek⟩ := days_of_accepted h hparse
  have hk : postedIndex d < schePars.child.length := by
    rw [← CJson.getArraySize, h7]
    cases d <;> decide
  have hall := mapM_except hweek
  have hkw : postedIndex d < week.length := hall.length_eq ▸ hk
  have htexts := parseDay_texts (hall.get hk hkw)
  refine ⟨week.get ⟨postedIndex d, hkw⟩, ?_, ?_⟩
  · rw [showDay, List.getElem?_eq_getElem hk]
    exact htexts
  · rw [hposted d, posted, List.getElem?_eq_getElem hk]
    refine postedDay_texts htexts fun t ht => ?_
    by_contra hshort
    exact hover ⟨schePars, week, hparse, h7, hweek, _, List.getElem_mem hkw, t, ht, not_le.1 hshort⟩

/-! ## What GetSchedule has read -/

section Get
variable {srv : Server} {list : List CameraInfo} {obj : CJson}

theorem scheduleType_eq_pure_iff {t : ℤ} : scheduleType obj = pure t ↔ typeOf obj = some t := by
  rw [typeOf, scheduleType]
  cases hid : obj.getObjectItem (bytes "typeId") with
  | some i =>
    rw [itemOf_of_some hid, Option.isSome_some, if_pos rfl]
    change (pure i.valueint : Reads ℤ) = pure t ↔ some i.valueint = some t
    refine ⟨fun h => ?_, fun h => by rw [Option.some.inj h]⟩
    exact congrArg some (Except.ok.inj (Option.some.inj h))
  | none =>
    rw [Option.isSome_none, if_neg (by decide)]
    cases htype : obj.getObjectItem (bytes "type") with
    | none =>
      rw [namedType_absent (valueOf_absent htype)]
      refine iff_of_false (fun h => ?_) (Option.some_ne_none t).symm
      cases Option.some.inj h
    | some i =>
      have hi : i.valuestring = valueOf obj "type" := by rw [valueOf, itemOf_of_some htype]
      dsimp only
      rw [hi]
      cases hvalue : valueOf obj "type" with
      | none =>
        rw [namedType_absent hvalue]
        refine iff_of_false (fun h => ?_) (Option.some_ne_none t).symm
        cases h
      | some c =>
        rw [need_some_bind, textOf_of_some hvalue]
        cases namedType c.text with
        | none =>
          refine iff_of_false (fun h => ?_) (Option.some_ne_none t).symm
          cases Option.some.inj h
        | some n =>
          refine ⟨fun h => ?_, fun h => by rw [Option.some.inj h]; rfl⟩
          exact congrArg some (Except.ok.inj (Option.some.inj h))

/-- an answer, and the text it was made from -/
structure Shown (srv : Server) (list : List CameraInfo) (obj : CJson) (mainId subId : Str) (days : List (List Str))
    (typeId : ℤ) (json : Str) (schePars : CJson) : Prop where
  main : textOf obj "mainId" = mainId
  sub : textOf obj "subId" = subId
  noZero : 0 ∉ mainId ∧ 0 ∉ subId
  type : typeOf obj = some typeId
  stored : storedSchedule list (mainId ++ bytes "-" ++ subId) typeId = some json
  some_text : json ≠ []
  parse : srv.codec.parse json = some schePars
  days : (List.range 7).mapM (showDay schePars) = some days

theorem getObjectItem_of_value {n : String} {v : CStr} (h : valueOf obj n = some v) :
    obj.getObjectItem (bytes n) = some (itemOf obj n) := by
  cases ho : obj.getObjectItem (bytes n) with
  | none =>
    rw [valueOf, itemOf, ho] at h
    cases h
  | some i => rw [itemOf_of_some ho]

theorem getSchedule_ok {mainId subId : Str} {days : List (List Str)}
    (h : (getSchedule srv list obj).run = some (.ok (.schedule mainId subId days))) :
    ∃ typeId json schePars, Shown srv list obj mainId subId days typeId json schePars := by
  obtain ⟨devMainId, hmain, h⟩ := ok_of_bind h
  obtain ⟨devSubId, hsub, h⟩ := ok_of_bind h
  obtain ⟨typeId, htype, h⟩ := ok_of_bind h
  obtain ⟨m, hm, h⟩ := ok_of_bind h
  obtain ⟨c, hc, h⟩ := ok_of_bind h
  obtain ⟨json, hjson, h⟩ := ok_of_bind h
  have hm : valueOf obj "mainId" = some m := by rw [valueOf, itemOf_of_some (ok_of_check hmain), ok_of_need hm]
  have hc : valueOf obj "subId" = some c := by rw [valueOf, itemOf_of_some (ok_of_check hsub), ok_of_need hc]
  split_ifs at h with hnil
  · cases Option.some.inj h
  · obtain ⟨schePars, hparse, h⟩ := ok_of_bind h
    obtain ⟨ds, hds, h⟩ := ok_of_bind h
    obtain ⟨rfl, rfl, rfl⟩ : m.text = mainId ∧ c.text = subId ∧ ds = days := by
      have hreply := Except.ok.inj (Option.some.inj h)
      injection hreply with h1 h2 h3
      exact ⟨h1, h2, h3⟩
    refine ⟨typeId, json, schePars, textOf_of_some hm, textOf_of_some hc, ⟨zero_not_mem_text m, zero_not_mem_text c⟩,
      scheduleType_eq_pure_iff.1 htype, ok_of_check hjson, hnil, ok_of_check hparse, ok_of_need hds⟩

theorem Shown.answer {typeId : ℤ} {json : Str} {schePars : CJson} {days : List (List Str)} {m c : CStr}
    (hm : valueOf obj "mainId" = some m) (hc : valueOf obj "subId" = some c)
    (h : Shown srv list obj m.text c.text days typeId json schePars) :
    (getSchedule srv list obj).run = some (.ok (.schedule m.text c.text days)) := by
  simp only [getSchedule, field, getObjectItem_of_value hm, getObjectItem_of_value hc, check_some_bind,
    scheduleType_eq_pure_iff.2 h.type, pure_bind, itemOf_valuestring, hm, hc, need_some_bind, h.stored, h.some_text,
    if_false, h.parse, h.days]
  rfl

end Get

/-! ## Every answer -/

theorem zero_not_mem_showDay {schePars : CJson} {i : ℕ} {day : List Str} (h : showDay schePars i = some day) :
    ∀ s ∈ day, 0 ∉ s := by
  obtain ⟨obj, -, hday⟩ := Option.bind_eq_some_iff.1 h
  have hall := mapM_option hday
  clear h hday
  generalize obj.child = items at hall
  induction hall with
  | nil => exact fun s hs => absurd hs List.not_mem_nil
  | @cons item t items texts hitem _ ih =>
    obtain ⟨c, -, rfl⟩ := Option.map_eq_some_iff.1 hitem
    exact List.forall_mem_cons.2 ⟨zero_not_mem_text c, ih⟩

/-- the days of an answer, one by one -/
theorem getElem_days {schePars : CJson} {days : List (List Str)}
    (h : (List.range 7).mapM (showDay schePars) = some days) (d : Weekday) :
    ∃ day, showDay schePars (postedIndex d) = some day ∧ days[postedIndex d]? = some day := by
  have hall := mapM_option h
  have hk : postedIndex d < (List.range 7).length := by cases d <;> decide
  have hkd : postedIndex d < days.length := hall.length_eq ▸ hk
  have hget := hall.get hk hkd
  rw [List.get_eq_getElem, List.getElem_range] at hget
  exact ⟨_, hget, List.getElem?_eq_getElem hkd⟩

theorem days_no_zero {schePars : CJson} {days : List (List Str)}
    (h : (List.range 7).mapM (showDay schePars) = some days) : ∀ day ∈ days, ∀ s ∈ day, 0 ∉ s := by
  intro day hday
  obtain ⟨k, hk, rfl⟩ := List.mem_iff_getElem.1 hday
  have hall := mapM_option h
  exact zero_not_mem_showDay (hall.get (hall.length_eq ▸ hk) hk)

/-- what a client reads in an answer -/
theorem Shown.read {srv : Server} {list : List CameraInfo} {obj : CJson} {mainId subId : Str} {days : List (List Str)}
    {typeId : ℤ} {json : Str} {schePars : CJson} (h : Shown srv list obj mainId subId days typeId json schePars)
    (D : Doubles) : ∃ (text : CText) (body : Item D.F),
      cJSONPrint D (scheduleBody mainId subId days) = some text.bytes ∧ cJSONParse D text = pure body ∧
      ∀ d, shownDay body d = showDay schePars (postedIndex d) := by
  obtain ⟨text, hprint, hparse⟩ := parsed_response (integral_scheduleBody (D := D) mainId subId days)
  refine ⟨text, _, hprint, hparse, fun d => ?_⟩
  obtain ⟨day, hshow, hget⟩ := getElem_days h.days d
  rw [shownDay_scheduleBody mainId subId (days_no_zero h.days) hget, hshow]

/-- the recording thread of a camera follows the text that is stored for it -/
theorem Coherent.recorded {env : Env} {s : Registries} (h : Coherent env s) {id json : Str}
    (hstored : storedSchedule s.cameraInfoList id 0 = some json) (hne : json ≠ []) :
    ∃ w, parseSchedule env.codec json = some (.ok w) ∧ s.streamThreadList.registered id = some w := by
  have hjson : ((s.cameraInfoList.find? (·.id = id)).map CameraInfo.recSchedule).getD [] = json :=
    Option.some.inj hstored
  cases hfind : s.cameraInfoList.find? (·.id = id) with
  | none =>
    rw [hfind] at hjson
    exact absurd hjson.symm hne
  | some c =>
    rw [hfind] at hjson
    have hid : c.id = id := by simpa using List.find?_some hfind
    have hkey : c.key ∈ s.listKeys := List.mem_map_of_mem (List.mem_of_find?_eq_some hfind)
    obtain ⟨w, hw, hreg⟩ := h.recording.present c.key hkey
    subst hid
    exact ⟨w, hjson ▸ ok_of_toOption hw, hreg⟩

theorem coherent_run {env : Env} {rows : List CameraInfo} {s₀ s : Registries} {requests : List Request}
    (hload : load env rows = some s₀) (hr : run (step env) s₀ requests = some s) : Coherent env s :=
  run_inv (fun _ _ _ h (_ : True) ht => h.step ht) (load_coherent hload) (Steps.of_forall fun _ _ _ => trivial) hr

/-- **What is shown is what is followed.** After start-up and any requests, an answer of `GetSchedule` for recordings is
printed and parsed, and a client reads in it, under each weekday, the intervals that the recording thread of the camera
follows on this weekday. -/
theorem shown_is_followed (D : Doubles) {srv : Server} {rows : List CameraInfo} {s₀ s : Registries}
    {requests : List Request} (hload : load srv.toEnv rows = some s₀) (hr : run (step srv.toEnv) s₀ requests = some s)
    {obj : CJson} {mainId subId : Str} {days : List (List Str)} (htype : typeOf obj = some 0)
    (hget : (getSchedule srv s.cameraInfoList obj).run = some (.ok (.schedule mainId subId days))) :
    ∃ (w : Week) (text : CText) (body : Item D.F),
      s.streamThreadList.registered (mainId ++ bytes "-" ++ subId) = some w ∧
      cJSONPrint D (scheduleBody mainId subId days) = some text.bytes ∧ cJSONParse D text = pure body ∧
      ∀ d, ∃ day, shownDay body d = some day ∧ (w.day d).map Interval.span = day.map textSpan := by
  have hcoherent := coherent_run hload hr
  obtain ⟨typeId, json, schePars, hshown⟩ := getSchedule_ok hget
  obtain rfl : typeId = 0 := Option.some.inj (hshown.type.symm.trans htype)
  obtain ⟨text, body, hprint, hparse, hread⟩ := hshown.read D
  obtain ⟨w, hw, hreg⟩ := hcoherent.recorded hshown.stored hshown.some_text
  refine ⟨w, text, body, hreg, hprint, hparse, fun d => ?_⟩
  obtain ⟨day, hday, hspan⟩ := accepted_shown hw hshown.parse d
  exact ⟨day, (hread d).trans hday, hspan⟩

/-- the service with cJSON -/
def weekServer : Server where
  storePath := bytes "/store/"
  db := tableDb
  codec := JsonText.codecOf JsonText.rationals
  transMediaPath := bytes "/media/"
  copy := id
  copy_text := fun _ => rfl
  lastError := ""

/-- each day from eight to six, on Sundays with a break -/
def week : List (List Str) :=
  List.replicate 6 [bytes "08:00:00-18:00:00"] ++ [[bytes "08:00:00-12:00:00", bytes "13:00:00-18:00:00"]]

def weekItem : Item JsonText.rationals.F := .array (week.map fun day => .array (day.map str))

/-- the body of a request that adds a camera with this schedule -/
def weekBody : Item JsonText.rationals.F :=
  .object [named "mainId" (str (bytes "1")), named "subId" (str (bytes "1")), named "name" (str (bytes "gate")),
    named "recSchedule" weekItem]

def weekText : CText := printed JsonText.rationals false weekBody

/-- the body of a request for the recording schedule -/
def scheduleRequest : CJson := .object [idOne "mainId", idOne "subId", num "typeId" 0]

theorem shown_is_followed_week : ∃ (s : Registries) (w : Week) (text : CText) (body : Item JsonText.rationals.F),
    run (step weekServer.toEnv) noCameras [.add (post weekText.bytes)] = some s ∧
      s.streamThreadList.registered (bytes "1" ++ bytes "-" ++ bytes "1") = some w ∧
      cJSONPrint JsonText.rationals (scheduleBody (bytes "1") (bytes "1") week) = some text.bytes ∧
      cJSONParse JsonText.rationals text = pure body ∧
      ∀ d, ∃ day, shownDay body d = some day ∧ (w.day d).map Interval.span = day.map textSpan := by
  have hrun : (run (step weekServer.toEnv) noCameras [.add (post weekText.bytes)]).map (fun s =>
      (getSchedule weekServer s.cameraInfoList scheduleRequest).run.bind Except.toOption) =
        some (some (.schedule (bytes "1") (bytes "1") week)) := by
    decide +kernel
  obtain ⟨s, hs, hget⟩ := Option.map_eq_some_iff.1 hrun
  have hload : load weekServer.toEnv [] = some noCameras := rfl
  obtain ⟨w, text, body, h⟩ := shown_is_followed JsonText.rationals hload hs (by decide) (ok_of_toOption hget)
  exact ⟨s, w, text, body, hs, h⟩

/-! ## A schedule that is posted -/

section Posted
variable {D : Doubles}

theorem strings_denotes {item : Item D.F} {obj : CJson} (h : Denotes D item obj) :
    (obj.child.mapM fun i => i.valuestring.map CStr.text) = strings item := by
  rw [strings]
  have hall := h.children
  generalize item.children = items at hall
  generalize obj.child = objs at hall
  induction hall with
  | nil => rfl
  | @cons i o items objs hi _ ih => rw [List.mapM_cons, List.mapM_cons, hi.fields.text, ih]

/-- the strings of a day are those of the item that the text denotes -/
theorem showDay_denotes {item : Item D.F} {obj : CJson} (h : Denotes D item obj) (i : ℕ) :
    showDay obj i = item.children[i]?.bind strings := by
  have hall := h.children
  rw [showDay]
  rcases Nat.lt_or_ge i obj.child.length with hlt | hge
  · have hlt' : i < item.children.length := hall.length_eq ▸ hlt
    rw [List.getElem?_eq_getElem hlt, List.getElem?_eq_getElem hlt']
    exact strings_denotes (hall.get hlt' hlt)
  · rw [List.getElem?_eq_none hge, List.getElem?_eq_none (hall.length_eq ▸ hge)]
    rfl

/-- an add request that is granted appends the camera, whose id was not in the list -/
theorem Coherent.granted {env : Env} {f : Faults} {s t : Registries} (h : Coherent env s) {r : AddRequest}
    (ht : s.register env f r = some (t, none)) :
    t.cameraInfoList = s.cameraInfoList ++ [r.info] ∧ ∀ c ∈ s.cameraInfoList, c.id ≠ r.devId := by
  rcases register_cases env f s r with ⟨-, hfail⟩ | ⟨rows, -, hend⟩
  · rw [hfail] at ht
    cases (Prod.mk.inj (Option.some.inj ht)).2
  · rw [ht] at hend
    cases hend with
    | granted hr _ hgranted =>
      have hnone : s.bakScheduleList r.devId = none := by
        by_contra hsome
        exact hr (Or.inl hsome)
      refine ⟨hgranted.list, fun c hc => ?_⟩
      exact (h.backup.none_iff r.devId).1 hnone c.key (List.mem_map_of_mem hc)

theorem stored_granted {list list' : List CameraInfo} {r : AddRequest} (hlist : list' = list ++ [r.info])
    (hfresh : ∀ c ∈ list, c.id ≠ r.devId) : storedSchedule list' r.devId 0 = some r.recScheduleCjson := by
  have hnone : list.find? (·.id = r.devId) = none :=
    List.find?_eq_none.2 fun c hc h => hfresh c hc (of_decide_eq_true h)
  have hfind : list'.find? (·.id = r.devId) = some r.info := by
    rw [hlist, List.find?_append, hnone, Option.none_or]
    exact List.find?_cons_of_pos (decide_eq_true rfl)
  rw [storedSchedule, hfind]
  rfl

/-- the text stored for a camera is printed from the schedule in the body of the request -/
theorem stored_posted {J : Codec} (hJ : IsCJson D J) {info : Str} {data : CText}
    (hdata : parsePostData info = some data.bytes) {body schedule : Item D.F} (hbody : cJSONParse D data = pure body)
    (hschedule : body.member (bytes "recSchedule") = some schedule) (hint : Integral D schedule) {r : AddRequest}
    (hadd : parseAdd J info = some (.ok r)) : r.recScheduleCjson = (printed D true schedule).bytes := by
  obtain ⟨obj, hposted⟩ := parseAdd_posted hadd
  obtain ⟨o, hparse, hdenotes⟩ := hJ.parse_ok data body hbody
  have hobj : postObject J info = .ok o := by
    rw [postObject, hdata]
    dsimp only
    rw [hparse]
  obtain ⟨main, sub, hids, -⟩ := hposted.ids
  obtain rfl : o = obj := by
    rcases postIds_cases hobj with ⟨-, e, he⟩ | ⟨-, hok⟩
    · rw [he] at hids
      cases hids
    · rw [hok] at hids
      exact (Prod.mk.inj (Except.ok.inj hids)).1
  obtain ⟨child, hchild, hseen⟩ := hdenotes.getObjectItem hschedule
  rw [hposted.recText, hchild, Option.getD_some, hJ.print_ok schedule child hint hseen]

/-- **What is posted is shown.** After start-up and any requests, a camera is added with a request whose body is JSON
with a recording schedule that has no numbers other than ints. The next `GetSchedule` for it responds, and a client that
parses the text of the response reads under each weekday the strings that the body of the request has for this day. -/
theorem posted_is_shown {srv : Server} (hJ : IsCJson D srv.codec) {rows : List CameraInfo} {s₀ s t : Registries}
    {requests : List Request} (hload : load srv.toEnv rows = some s₀) (hr : run (step srv.toEnv) s₀ requests = some s)
    {info : Str} {data : CText} (hdata : parsePostData info = some data.bytes) {posted schedule : Item D.F}
    (hposted : cJSONParse D data = pure posted) (hschedule : posted.member (bytes "recSchedule") = some schedule)
    (hint : Integral D schedule) {r : AddRequest} (hadd : parseAdd srv.codec info = some (.ok r)) {f : Faults}
    (hgranted : s.register srv.toEnv f r = some (t, none)) {obj : CJson} (hid : idOf obj = r.devId)
    (hstrings : Strings obj ["mainId", "subId"]) (htype : typeOf obj = some 0) :
    ∃ (days : List (List Str)) (text : CText) (body : Item D.F), (getSchedule srv t.cameraInfoList obj).run =
        some (.ok (.schedule (textOf obj "mainId") (textOf obj "subId") days)) ∧
      cJSONPrint D (scheduleBody (textOf obj "mainId") (textOf obj "subId") days) = some text.bytes ∧
      cJSONParse D text = pure body ∧ ∀ d, shownDay body d = schedule.children[postedIndex d]?.bind strings := by
  have hok := parseAdd_ok hadd
  obtain ⟨hlist, hfresh⟩ := (coherent_run hload hr).granted hgranted
  obtain ⟨m, hm⟩ := Option.isSome_iff_exists.1 (strings_cons.1 hstrings).1
  obtain ⟨c, hc⟩ := Option.isSome_iff_exists.1 (strings_cons.1 (strings_cons.1 hstrings).2).1
  have hstored := stored_granted hlist hfresh
  rw [← hid, idOf, textOf_of_some hm, textOf_of_some hc] at hstored
  have hne : r.recScheduleCjson ≠ [] := by
    intro hnil
    have hacc := hok.recording
    rw [hnil, accepted_nil] at hacc
    cases hacc
  obtain ⟨schePars, hparse, hdenotes⟩ := JsonText.parse_printed hJ hint
  rw [← stored_posted hJ hdata hposted hschedule hint hadd] at hparse
  have hshows := shows_of_accepted (Option.isSome_iff_exists.2 ⟨_, hok.recording⟩)
  obtain ⟨days, hdays⟩ := (shows_iff srv.codec _).1 hshows hne schePars hparse
  have hshown : Shown srv t.cameraInfoList obj m.text c.text days 0 r.recScheduleCjson schePars :=
    ⟨textOf_of_some hm, textOf_of_some hc, ⟨zero_not_mem_text m, zero_not_mem_text c⟩, htype, hstored, hne, hparse,
      hdays⟩
  obtain ⟨text, body, hbody, hparsed, hread⟩ := hshown.read D
  rw [textOf_of_some hm, textOf_of_some hc]
  exact ⟨days, text, body, hshown.answer hm hc, hbody, hparsed,
    fun d => (hread d).trans (showDay_denotes hdenotes (postedIndex d))⟩

end Posted

theorem integral_weekItem : Integral JsonText.rationals weekItem := by
  rw [weekItem, Integral, integralItems_iff]
  intro i hi
  obtain ⟨day, -, rfl⟩ := List.mem_map.1 hi
  exact integral_strs day

theorem integral_weekBody : Integral JsonText.rationals weekBody := by
  refine integral_object ?_
  simp only [List.forall_mem_cons, named]
  exact ⟨integral_str _, integral_str _, integral_str _, integral_weekItem, fun m hm => absurd hm List.not_mem_nil⟩

theorem member_weekBody : weekBody.member (bytes "recSchedule") = some weekItem := by
  rw [weekBody, Item.member, List.find?_cons_of_neg (by decide +kernel), List.find?_cons_of_neg (by decide +kernel),
    List.find?_cons_of_neg (by decide +kernel), List.find?_cons_of_pos (by decide +kernel)]
  rfl

theorem posted_is_shown_week : ∃ (r : AddRequest) (t : Registries) (days : List (List Str)) (text : CText)
    (body : Item JsonText.rationals.F), cJSONParse JsonText.rationals weekText = pure weekBody ∧
      parseAdd weekServer.codec (post weekText.bytes) = some (.ok r) ∧
      noCameras.register weekServer.toEnv .none r = some (t, none) ∧
      (getSchedule weekServer t.cameraInfoList scheduleRequest).run =
        some (.ok (.schedule (textOf scheduleRequest "mainId") (textOf scheduleRequest "subId") days)) ∧
      cJSONPrint JsonText.rationals (scheduleBody (textOf scheduleRequest "mainId") (textOf scheduleRequest "subId")
        days) = some text.bytes ∧
      cJSONParse JsonText.rationals text = pure body ∧
      ∀ d, shownDay body d = weekItem.children[postedIndex d]?.bind strings := by
  have hadd : ((parseAdd weekServer.codec (post weekText.bytes)).bind Except.toOption).map (fun r =>
      (r.devId, (noCameras.register weekServer.toEnv .none r).map Prod.snd)) = some (bytes "1-1", some none) := by
    decide +kernel
  obtain ⟨r, hr, hfields⟩ := Option.map_eq_some_iff.1 hadd
  obtain ⟨hid, hgranted⟩ := Prod.mk.inj hfields
  have hparse := ok_of_toOption hr
  obtain ⟨⟨t, e⟩, ht, he⟩ := Option.map_eq_some_iff.1 hgranted
  dsimp only at he
  subst he
  have hid' : idOf scheduleRequest = r.devId := by
    rw [hid]
    decide +kernel
  have hload : load weekServer.toEnv [] = some noCameras := rfl
  have hrun : run (step weekServer.toEnv) noCameras [] = some noCameras := rfl
  have hdata : parsePostData (post weekText.bytes) = some weekText.bytes := by decide +kernel
  have hbody : cJSONParse JsonText.rationals weekText = pure weekBody :=
    JsonText.cJSONParse_printed false integral_weekBody
  have hstrings : Strings scheduleRequest ["mainId", "subId"] := by
    rw [strings_cons, strings_cons]
    exact ⟨by decide, by decide, strings_nil _⟩
  obtain ⟨days, text, body, hshown⟩ := posted_is_shown (JsonText.isCJson_codecOf _) hload hrun hdata hbody
    member_weekBody integral_weekItem hparse ht hid' hstrings (by decide)
  exact ⟨r, t, days, text, body, hbody, hparse, ht, hshown⟩

/-! ## Lists of files -/

section Files
variable {D : Doubles}

theorem listedFiles_listBody {rows : List MysqlStoreInfo} (h : ∀ row ∈ rows, NoZero row) :
    listedFiles (listBody rows : Item D.F) = some rows := by
  have hmember : member "message" (listBody rows : Item D.F) = some (.array (rows.map fileBody)) := by
    rw [listBody, member_ne _ _ (by decide +kernel), member_eq _ _ _ (by decide +kernel)]
  rw [listedFiles, hmember]
  change (rows.map fileBody).mapM (fun item : Item D.F => listedFile item) = some rows
  clear hmember
  induction rows with
  | nil => rfl
  | cons row rows ih =>
    obtain ⟨hrow, hrows⟩ := List.forall_mem_cons.1 h
    rw [List.map_cons, List.mapM_cons, listedFile_fileBody hrow, ih hrows]
    rfl

/-- a client reads this list in the response made from these rows -/
def Listed (D : Doubles) (rows list : List MysqlStoreInfo) : Prop :=
  ∃ (text : CText) (body : Item D.F), cJSONPrint D (listBody rows) = some text.bytes ∧ cJSONParse D text = pure body ∧
    listedFiles body = some list

theorem listed_filter {rows : List MysqlStoreInfo} (h : ∀ row ∈ rows, NoZero row) (keep : MysqlStoreInfo → Bool) :
    Listed D (rows.filter keep) (rows.filter keep) := by
  have hbody : Integral D (listBody (rows.filter keep)) := integral_listBody (rows.filter keep)
  obtain ⟨text, hprint, hparse⟩ := parsed_response hbody
  exact ⟨text, _, hprint, hparse, listedFiles_listBody fun row hrow => h row (List.mem_of_mem_filter hrow)⟩

end Files

/-- **Files are listed as they are stored.** A query over times around all files of a camera succeeds, whatever the
flags hold, and what a client reads in the responses are the files of the type and the files with a backup, all of them
and in the order of the table. -/
theorem files_as_queried (D : Doubles) {rows : List CameraRow} (hsorted : SortedRows rows)
    (hzero : ∀ row ∈ rows, NoZero row.toMysqlStoreInfo) (hne : rows ≠ []) {startSec endSec : ℤ}
    (hstart : startSec < startTime rows 0) (hend : startTime rows (rows.length - 1) < endSec) (startFlag endFlag : ℤ)
    (recodeType : Str) : ∃ q, queryRange rows startSec endSec startFlag endFlag = some q ∧ q.ret = 0 ∧
      Listed D (recodeRows recodeType q.result) ((rows.map (·.toMysqlStoreInfo)).filter (·.fileType = recodeType)) ∧
      Listed D (backupRows q.result) ((rows.map (·.toMysqlStoreInfo)).filter (·.fileBackup = bytes "yes")) := by
  have hquery := queryRange_offTable hsorted (Or.inl hstart) ⟨hne, Or.inl hstart⟩ ⟨hne, Or.inr hend⟩ startFlag endFlag
  have hsome : rows.map (·.toMysqlStoreInfo) ≠ [] := fun h => hne (List.map_eq_nil_iff.1 h)
  rw [rangeAnswer, rowsIn_all hsorted hstart hend, if_neg hsome] at hquery
  have hrows : ∀ row ∈ rows.map (·.toMysqlStoreInfo), NoZero row := List.forall_mem_map.2 hzero
  exact ⟨_, hquery, rfl, listed_filter hrows _, listed_filter hrows _⟩

/-- two files of a camera, the first one with a backup -/
def fileRows : List CameraRow :=
  [⟨⟨bytes "a", bytes "planned", bytes "unlock", bytes "yes"⟩, 10⟩,
    ⟨⟨bytes "b", bytes "alarm", bytes "unlock", bytes "no"⟩, 20⟩]

theorem files_as_queried_two : ∃ q, queryRange fileRows 5 60 0 0 = some q ∧ q.ret = 0 ∧
    Listed JsonText.rationals (recodeRows (bytes "alarm") q.result)
      [⟨bytes "b", bytes "alarm", bytes "unlock", bytes "no"⟩] ∧
    Listed JsonText.rationals (backupRows q.result) [⟨bytes "a", bytes "planned", bytes "unlock", bytes "yes"⟩] :=
  files_as_queried JsonText.rationals (by unfold SortedRows; decide) (by decide +kernel) (by decide) (by decide)
    (by decide) 0 0 (bytes "alarm")

end StoreService.Http
