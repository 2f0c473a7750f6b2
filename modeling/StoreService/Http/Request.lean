/-
The name of a request (`ParseReq`, `ResponseReq`, http.cpp).

The name is what stands between the method marker ("GET /" or else "POST /") and the next '/' or ' ', as far as the
first "HTTP/1.1". Both markers are sought in the whole message, and the copy to `req` has no bound of its own.

Model: the message as a C string, that is, its bytes before the first zero. `parseReq` gives the bytes written to `req`
and the text from the pointer returned on. `req` was zeroed and has 256 bytes; a name that fills it has no terminator
and is none of the names of the list, whatever stands behind it.

- `request_name_iff`: a message whose first line is "GET /name HTTP/1.1" or "POST /name HTTP/1.1" is taken for that name
  (and refused, with no write past `req`, if the name has 256 characters or more) iff a shorter name has no zero and the
  text behind a POST line has no "GET /", and a name of more than 256 characters has a zero or stands in such a POST
  line.
- `get_in_body`: a POST request with "GET /" in its body is refused; a name of 257 characters is written past `req`.
-/
import StoreService.Core.Find
import StoreService.Common.Json

namespace StoreService.Http

open StoreService.Json StoreService.Find

/-! ## The functions -/

def httpReqStringLen : ℕ := 256

inductive Handler where
  | addRecodeDevice
  | deleteRecodeDevice
  | updateSchedule
  | getSchedule
  | eventRecode
  | operateFile
  | getRecodeList
  | getBackupList
  | addPlaybackDev
  | delPlaybackDev
deriving DecidableEq, Repr

/-- `httpReqList` -/
def httpReqList : List (Str × Handler) :=
  [(bytes "addrecodedevice", .addRecodeDevice), (bytes "deleterecodedevice", .deleteRecodeDevice),
    (bytes "updateschedule", .updateSchedule), (bytes "getschedule", .getSchedule),
    (bytes "eventrecode", .eventRecode), (bytes "operatefile", .operateFile),
    (bytes "getrecodelist", .getRecodeList), (bytes "getbackuplist", .getBackupList),
    (bytes "playback", .addPlaybackDev), (bytes "deleteplayback", .delPlaybackDev)]

def httpVer : Str := bytes "HTTP/1.1"

inductive Method where
  | get
  | post
deriving DecidableEq, Repr

/-- `method[]` -/
def Method.marker : Method → Str
  | .get => bytes "GET /"
  | .post => bytes "POST /"

/-- the `while (start < end)`, with the number of rounds left: the bytes written to `req` -/
def copyReq : ℕ → Str → Str
  | n + 1, c :: rest => c :: if rest.head? = some 47 ∨ rest.head? = some 32 then [] else copyReq n rest
  | _, _ => []

/-- the place behind the method marker -/
def methodEnd (content : Str) : Option ℕ :=
  match strstr Method.get.marker content with
  | some i => some (i + Method.get.marker.length)
  | none => (strstr Method.post.marker content).map (· + Method.post.marker.length)

/-- `ParseReq` -/
def parseReq (content : Str) : Option (Str × Str) := do
  let start ← methodEnd content
  let stop ← strstr httpVer content
  let req := copyReq (stop - start) (content.drop start)
  return (req, content.drop (start + req.length))

/-- the handler that `ResponseReq` calls -/
def responseReq (req : Str) : Option Handler := (httpReqList.find? fun e => e.1 = req).map (·.2)

/-- the handler that a message gets; `none` is the response 400 -/
def handlerOf (content : Str) : Option Handler := (parseReq content).bind fun r => responseReq r.1

theorem length_copyReq_le (n : ℕ) (s : Str) : (copyReq n s).length ≤ n := by
  induction n generalizing s with
  | zero => exact Nat.zero_le 0
  | succ n ih =>
    cases s with
    | nil => exact Nat.zero_le _
    | cons c s =>
      rw [copyReq, List.length_cons]
      split_ifs
      · exact Nat.succ_le_succ (Nat.zero_le n)
      · exact Nat.succ_le_succ (ih s)

/-- a name that is not empty ends before the version, and so does the pointer returned -/
theorem parseReq_place {content req info : Str} (h : parseReq content = some (req, info)) (hne : req ≠ []) :
    ∃ pos stop, strstr httpVer content = some stop ∧ pos ≤ stop ∧ info = content.drop pos := by
  obtain ⟨start, -, hstop⟩ := Option.bind_eq_some_iff.1 h
  obtain ⟨stop, hver, hreq⟩ := Option.bind_eq_some_iff.1 hstop
  obtain ⟨rfl, rfl⟩ := Prod.mk.inj (Option.some.inj hreq)
  have hle := length_copyReq_le (stop - start) (content.drop start)
  have hpos : 0 < (copyReq (stop - start) (content.drop start)).length := List.length_pos_iff.2 hne
  exact ⟨_, stop, hver, by omega, rfl⟩

/-! ## Messages -/

/-- the bytes before the first zero -/
def cText (s : Str) : Str := s.takeWhile (· ≠ 0)

/-- a message by its first line -/
def message (m : Method) (name rest : Str) : Str := m.marker ++ (name ++ (32 :: (httpVer ++ rest)))

/-- the name decides, and a name that is too long is refused and not written past `req` -/
def NameDecides (m : Method) (name rest : Str) : Prop :=
  if name.length < httpReqStringLen then
    (∃ info, parseReq (cText (message m name rest)) = some (name, info)) ∧
      handlerOf (cText (message m name rest)) = responseReq name
  else
    handlerOf (cText (message m name rest)) = none ∧
      ∀ r, parseReq (cText (message m name rest)) = some r → r.1.length ≤ httpReqStringLen

/-- "GET /" behind a POST line -/
def GetBehind (m : Method) (rest : Str) : Prop := m = .post ∧ Method.get.marker <:+: cText rest

/-! ## The markers -/

theorem httpVer_eq : httpVer = [72, 84, 84, 80, 47, 49, 46, 49] := by decide

/-- neither marker begins in a name: its '/' would stand in the name, or in " HTTP" -/
theorem not_starts_in_name {pat name rest : Str} (hslash : pat[4]? = some 47) (hfree : 47 ∉ name) (hne : name ≠ []) :
    ¬ pat <+: name ++ 32 :: (httpVer ++ rest) := by
  rintro ⟨t, ht⟩
  have hget : (name ++ 32 :: (httpVer ++ rest))[4]? = some 47 := by
    rw [← ht, List.getElem?_append_left (List.getElem?_eq_some_iff.1 hslash).1]
    exact hslash
  rw [httpVer_eq] at hget
  match name, hne with
  | [a], _ | [a, b], _ | [a, b, c], _ | [a, b, c, d], _ => exact absurd hget (by simp)
  | a :: b :: c :: d :: e :: name, _ =>
    have he : e = 47 := Option.some.inj hget
    exact hfree (by simp [he])

/-- a marker is sought behind the name -/
theorem strstr_name {pat name : Str} (hslash : pat[4]? = some 47) (hfree : 47 ∉ name) (rest : Str) :
    strstr pat (name ++ 32 :: (httpVer ++ rest)) = (strstr pat (32 :: (httpVer ++ rest))).map (· + name.length) := by
  apply strstr_append_of_not_starts
  rintro u v rfl hv
  exact not_starts_in_name hslash (fun h => hfree (List.mem_append_right _ h)) hv

/-- the first "HTTP/1.1" is that of the first line -/
theorem strstr_httpVer (m : Method) {name : Str} (hfree : 47 ∉ name) (rest : Str) :
    strstr httpVer (message m name rest) = some (m.marker.length + (name.length + 1)) := by
  have hmarker : 72 ∉ m.marker := by cases m <;> decide
  have hspace : ¬ httpVer <+: 32 :: (httpVer ++ rest) := by
    rw [httpVer_eq]
    exact fun h => absurd (List.cons_prefix_cons.1 h).1 (by decide)
  rw [message, strstr_append_of_head (by decide) hmarker, strstr_name (by decide) hfree, strstr_cons hspace,
    strstr_of_isPrefix (List.prefix_append _ _)]
  simp only [Option.map_some, Option.some.injEq]
  omega

/-- "GET /" in a POST message stands behind the first line -/
theorem strstr_get_post {name : Str} (hfree : 47 ∉ name) (rest : Str) :
    strstr Method.get.marker (message .post name rest) =
      (strstr Method.get.marker rest).map (· + (name.length + 15)) := by
  have hline : 71 ∉ 32 :: httpVer := by decide
  rw [message, strstr_append_of_head (by decide) (by decide : (71 : UInt8) ∉ Method.post.marker),
    strstr_name (by decide) hfree, ← List.cons_append, strstr_append_of_head (by decide) hline, Option.map_map,
    Option.map_map]
  congr 1
  funext n
  have h1 : (32 :: httpVer).length = 9 := by decide
  have h2 : Method.post.marker.length = 6 := by decide
  simp only [Function.comp_apply]
  omega

theorem strstr_marker (m : Method) (name rest : Str) : strstr m.marker (message m name rest) = some 0 :=
  strstr_of_isPrefix (List.prefix_append _ _)

theorem methodEnd_line {m : Method} {name rest : Str} (hfree : 47 ∉ name)
    (h : ¬ (m = .post ∧ Method.get.marker <:+: rest)) :
    methodEnd (message m name rest) = some m.marker.length := by
  rw [methodEnd]
  cases m with
  | get =>
    rw [strstr_marker]
    exact congrArg some (Nat.zero_add _)
  | post =>
    have hnone : strstr Method.get.marker rest = none := strstr_eq_none_iff.2 fun hget => h ⟨rfl, hget⟩
    rw [strstr_get_post hfree, hnone, Option.map_none, strstr_marker, Option.map_some, Nat.zero_add]

theorem methodEnd_behind {name rest : Str} (hfree : 47 ∉ name) (h : Method.get.marker <:+: rest) :
    ∃ n, methodEnd (message .post name rest) = some n ∧ name.length + 15 ≤ n := by
  obtain ⟨i, hi⟩ := Option.ne_none_iff_exists'.1 fun hnone => strstr_eq_none_iff.1 hnone h
  refine ⟨i + (name.length + 15) + Method.get.marker.length, ?_, by omega⟩
  rw [methodEnd, strstr_get_post hfree, hi, Option.map_some]

/-! ## The name -/

theorem copyReq_name {name : Str} (hne : name ≠ []) (hfree : 47 ∉ name ∧ 32 ∉ name) (rest : Str) :
    copyReq (name.length + 1) (name ++ 32 :: rest) = name := by
  induction name with
  | nil => exact absurd rfl hne
  | cons c name ih =>
    rw [List.cons_append, List.length_cons, copyReq]
    cases name with
    | nil =>
      have hspace : (([] : Str) ++ 32 :: rest).head? = some 32 := rfl
      rw [if_pos (Or.inr hspace)]
    | cons d name =>
      have hd : ¬ ((d :: name ++ 32 :: rest).head? = some 47 ∨ (d :: name ++ 32 :: rest).head? = some 32) := by
        rw [List.cons_append, List.head?_cons, Option.some.injEq, Option.some.injEq]
        rintro (rfl | rfl)
        · exact hfree.1 (by simp)
        · exact hfree.2 (by simp)
      rw [if_neg hd, ih (List.cons_ne_nil d name) ⟨fun h => hfree.1 (List.mem_cons_of_mem c h),
        fun h => hfree.2 (List.mem_cons_of_mem c h)⟩]

theorem parseReq_line {m : Method} {name rest : Str} (hne : name ≠ []) (hfree : 47 ∉ name ∧ 32 ∉ name)
    (h : ¬ (m = .post ∧ Method.get.marker <:+: rest)) :
    parseReq (message m name rest) = some (name, 32 :: (httpVer ++ rest)) := by
  have hdrop : (message m name rest).drop m.marker.length = name ++ 32 :: (httpVer ++ rest) := List.drop_left
  rw [parseReq, methodEnd_line hfree.1 h, strstr_httpVer m hfree.1]
  simp only [Option.bind_eq_bind, Option.bind_some, Nat.add_sub_cancel_left, hdrop, copyReq_name hne hfree]
  rw [← List.drop_drop, hdrop, List.drop_left]
  rfl

/-- with "GET /" behind the first line nothing is copied -/
theorem parseReq_behind {name rest : Str} (hfree : 47 ∉ name) (h : Method.get.marker <:+: rest) :
    ∃ info, parseReq (message .post name rest) = some ([], info) := by
  obtain ⟨n, hn, hle⟩ := methodEnd_behind hfree h
  have hmarker : Method.post.marker.length = 6 := by decide
  have hzero : Method.post.marker.length + (name.length + 1) - n = 0 := by omega
  rw [parseReq, hn, strstr_httpVer .post hfree]
  simp only [Option.bind_eq_bind, Option.bind_some, hzero]
  exact ⟨_, rfl⟩

theorem cText_append {a : Str} (ha : 0 ∉ a) (b : Str) : cText (a ++ b) = a ++ cText b := by
  apply List.takeWhile_append_of_pos
  intro c hc
  simp only [decide_eq_true_eq]
  rintro rfl
  exact ha hc

theorem cText_of_mem {a : Str} (ha : 0 ∈ a) (b : Str) : cText (a ++ b) = cText a := by
  induction a with
  | nil => exact absurd ha List.not_mem_nil
  | cons c a ih =>
    rw [cText, cText, List.cons_append, List.takeWhile_cons, List.takeWhile_cons]
    split_ifs with hc
    · have hne : (0 : UInt8) ≠ c := fun h => by simp [← h] at hc
      rw [← cText, ih ((List.mem_cons.1 ha).resolve_left hne), cText]
    · rfl

theorem cText_message {m : Method} {name : Str} (h0 : 0 ∉ name) (rest : Str) :
    cText (message m name rest) = message m name (cText rest) := by
  have hmarker : 0 ∉ m.marker := by cases m <;> decide
  have hver : 0 ∉ 32 :: httpVer := by decide
  rw [message, cText_append hmarker, cText_append h0, ← List.cons_append, cText_append hver]
  rfl

/-- a zero in the name hides the version -/
theorem parseReq_zero {m : Method} {name : Str} (h0 : 0 ∈ name) (hfree : 47 ∉ name) (rest : Str) :
    parseReq (cText (message m name rest)) = none := by
  have hmarker : 0 ∉ m.marker := by cases m <;> decide
  have hhead : 72 ∉ m.marker := by cases m <;> decide
  have hver : strstr httpVer (cText name) = none := by
    refine strstr_eq_none_iff.2 fun hin => hfree ?_
    exact (List.takeWhile_sublist _).subset (hin.subset (by decide))
  rw [parseReq, message, cText_append hmarker, cText_of_mem h0, strstr_append_of_head (by decide) hhead, hver]
  cases methodEnd (m.marker ++ cText name) <;> rfl

theorem responseReq_long {req : Str} (h : httpReqStringLen ≤ req.length) : responseReq req = none := by
  have hshort : ∀ e ∈ httpReqList, e.1.length < httpReqStringLen := by decide
  rw [responseReq, Option.map_eq_none_iff, List.find?_eq_none]
  intro e he heq
  rw [← of_decide_eq_true heq] at h
  exact absurd (hshort e he) (not_lt.2 h)

/-- what a message decides, from what `ParseReq` makes of it -/
theorem nameDecides_of_parseReq {m : Method} {name rest : Str} {r : Option (Str × Str)}
    (h : parseReq (cText (message m name rest)) = r) :
    NameDecides m name rest ↔ if name.length < httpReqStringLen then ∃ info, r = some (name, info)
      else (r.bind fun q => responseReq q.1) = none ∧ ∀ q, r = some q → q.1.length ≤ httpReqStringLen := by
  rw [NameDecides, handlerOf, h]
  split_ifs
  · constructor
    · exact fun hname => hname.1
    · rintro ⟨info, rfl⟩
      exact ⟨⟨info, rfl⟩, rfl⟩
  · exact Iff.rfl

/-- **The request name.** -/
theorem request_name_iff (m : Method) (name rest : Str) (hne : name ≠ []) (hfree : 47 ∉ name ∧ 32 ∉ name) :
    NameDecides m name rest ↔
      (name.length < httpReqStringLen → 0 ∉ name ∧ ¬ GetBehind m rest) ∧
        (httpReqStringLen < name.length → 0 ∈ name ∨ GetBehind m rest) := by
  by_cases h0 : 0 ∈ name
  · rw [nameDecides_of_parseReq (parseReq_zero h0 hfree.1 rest)]
    split_ifs with hlen
    · exact iff_of_false nofun fun h => (h.1 hlen).1 h0
    · exact iff_of_true ⟨rfl, nofun⟩ ⟨fun h => absurd h hlen, fun _ => Or.inl h0⟩
  have hcut := cText_message (m := m) h0 rest
  by_cases hbehind : GetBehind m rest
  · obtain ⟨rfl, hget⟩ := hbehind
    obtain ⟨info, hinfo⟩ := parseReq_behind hfree.1 hget
    rw [← hcut] at hinfo
    rw [nameDecides_of_parseReq hinfo]
    split_ifs with hlen
    · refine iff_of_false ?_ fun h => (h.1 hlen).2 ⟨rfl, hget⟩
      rintro ⟨_, heq⟩
      exact hne (Prod.mk.inj (Option.some.inj heq)).1.symm
    · have hempty : responseReq [] = none := by decide
      refine iff_of_true ⟨hempty, ?_⟩ ⟨fun h => absurd h hlen, fun _ => Or.inr ⟨rfl, hget⟩⟩
      rintro _ heq
      rw [← Option.some.inj heq]
      exact Nat.zero_le _
  · have hline := parseReq_line hne hfree hbehind
    rw [← hcut] at hline
    rw [nameDecides_of_parseReq hline]
    split_ifs with hlen
    · exact iff_of_true ⟨_, rfl⟩ ⟨fun _ => ⟨h0, hbehind⟩, fun h => absurd hlen (Nat.lt_asymm h)⟩
    · rw [Option.bind_some, responseReq_long (not_lt.1 hlen)]
      constructor
      · rintro ⟨-, hsize⟩
        exact ⟨fun h => absurd h hlen, fun h => absurd (hsize _ rfl) (not_le.2 h)⟩
      · rintro ⟨-, hlong⟩
        refine ⟨rfl, fun q hq => ?_⟩
        rw [← Option.some.inj hq]
        exact not_lt.1 fun h => (hlong h).elim h0 hbehind

theorem request_name_playback : NameDecides .post (bytes "playback") (bytes "\r\n\r\n\x7b\x7d") :=
  (request_name_iff .post (bytes "playback") (bytes "\r\n\r\n\x7b\x7d") (by decide) (by decide)).2
    ⟨fun _ => ⟨by decide, fun h => absurd h.2 (by decide)⟩, fun h => absurd h (by decide)⟩

/-- a body with "GET /" in it -/
def getBody : Str := bytes "\r\n\r\n\x7b\x22path\x22:\x22GET /\x22\x7d"

/-- a name that `req` has no room for -/
def longName : Str := List.replicate 257 97

theorem parseReq_longName : parseReq (cText (message .post longName [])) = some (longName, 32 :: (httpVer ++ [])) := by
  have hfree : ∀ c : UInt8, c ≠ 97 → c ∉ longName := fun c hc hmem => hc (List.eq_of_mem_replicate hmem)
  have hne : longName ≠ [] := List.cons_ne_nil 97 (List.replicate 256 97)
  rw [cText_message (hfree 0 (by decide))]
  exact parseReq_line hne ⟨hfree 47 (by decide), hfree 32 (by decide)⟩ fun h => absurd h.2 (by decide)

theorem not_nameDecides_long {m : Method} {name rest info : Str} (hlong : httpReqStringLen < name.length)
    (h : parseReq (cText (message m name rest)) = some (name, info)) : ¬ NameDecides m name rest := by
  rw [nameDecides_of_parseReq h, if_neg (Nat.lt_asymm hlong)]
  exact fun hsize => absurd (hsize.2 _ rfl) (not_le.2 hlong)

/-- a POST request with "GET /" in its body, and a name of 257 characters -/
theorem get_in_body :
    handlerOf (cText (message .post (bytes "playback") getBody)) = none ∧
    ¬ NameDecides .post (bytes "playback") getBody ∧
    parseReq (cText (message .post longName [])) = some (longName, 32 :: (httpVer ++ [])) ∧
    longName.length = httpReqStringLen + 1 ∧ ¬ NameDecides .post longName [] := by
  have hempty : (parseReq (cText (message .post (bytes "playback") getBody))).map (·.1) = some [] := by decide +kernel
  have hlen : longName.length = httpReqStringLen + 1 := List.length_replicate
  refine ⟨by decide +kernel, fun h => ?_, parseReq_longName, hlen, not_nameDecides_long ?_ parseReq_longName⟩
  · rw [NameDecides, if_pos (by decide)] at h
    obtain ⟨⟨info, hinfo⟩, -⟩ := h
    rw [hinfo, Option.map_some] at hempty
    exact absurd (Option.some.inj hempty) (by decide : bytes "playback" ≠ [])
  · rw [hlen]
    exact Nat.lt_succ_self _

end StoreService.Http
