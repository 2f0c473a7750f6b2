/-
Does the handler see the whole body (`ClientResponseProc`, server.cpp; `ResponseClient`, http.cpp)?

A request that comes in pieces is read as far as it has arrived. If the blank line is there and Content-Length bytes are
not, `ResponseClient` reads once more, does not look at what that returns and sets no zero behind it. Then `ParseReq`
chooses the handler, and the handler parses what follows the first blank line, as a C string.

Model: what the loop's reads return one after the other, up to the first that returns nothing, and what the further read
finds; both are the next bytes of the request. The buffer and the array `len` hold anything before.

- `body_seen_iff`: for a POST request that fits the buffer, the handler parses exactly the body, or no handler runs and
  the response is an error, iff what the buffer holds as a C string names no request, or the whole request has arrived
  with a zero behind it: in the loop, or by the further read if the buffer held the rest and the zero before.
- `body_cut`: a body that comes in two pieces, with a byte of the buffer behind it; and a head without its blank line,
  whose handler gets no body.
-/
import StoreService.Http.Receive

namespace StoreService.Http

open StoreService.ByteMem StoreService.Fields StoreService.Find StoreService.Json StoreService.Dates StoreService.Store

/-! ## Serving a connection -/

/-- what becomes of a connection -/
inductive Outcome where
  /-- nothing was read: closed without a response -/
  | closed
  /-- the string has no end in the buffer -/
  | overrun
  /-- the response 400 -/
  | refused
  /-- a handler runs; the text it parses, if it finds a blank line -/
  | ran (h : Handler) (text : Option Str)
deriving DecidableEq

/-- `ResponseClient` after the further read -/
def respondTo (size : ℕ) (mem : Mem) : Outcome :=
  match scanField mem 0 size 0 with
  | .error _ => .overrun
  | .ok (content, _) =>
    match parseReq content with
    | none => .refused
    | some (req, info) =>
      match responseReq req with
      | none => .refused
      | some h => .ran h (parsePostData info)

/-- `ClientResponseProc` with `ResponseClient` -/
def serve (size : ℕ) (prior : Mem) (found : List Str) (stack extra : Str) : Outcome :=
  match receive prior found with
  | none => .closed
  | some b => respondTo size (b.readMore stack extra).pReadBuf

/-! ## Requests -/

def blankLine : Str := bytes "\r\n\r\n"

/-- the buffer after the loop, which sets a zero, and after a further read, which does not -/
def held (prior : Mem) (p data : Str) : Mem := putBytes (putBytes (putBytes prior 0 p) p.length [0]) p.length data

/-- the request line and the headers -/
def postHead (target headers : Str) : Str := message .post target (bytes "\r\n" ++ headers)

def postText (target headers body : Str) : Str := postHead target headers ++ (blankLine ++ body)

/-- a POST request: the first blank line ends its head, and a header has the length of its body -/
structure PostRequest where
  target : Str
  headers : Str
  body : Str
  blank : strstr blankLine (postText target headers body) = some (postHead target headers).length
  contentLength : ∃ before digits behind : Str,
    headers = before ++ (bytes "Content-Length: " ++ (digits ++ behind)) ∧
      (before = [] ∨ bytes "\r\n" <:+ before) ∧ (behind = [] ∨ bytes "\r\n" <+: behind) ∧
      Decimal digits.length digits ∧ digitsValue digits = body.length

namespace PostRequest

variable (r : PostRequest)

def head : Str := postHead r.target r.headers

def text : Str := postText r.target r.headers r.body

/-- the handler sees the body, or none runs and the response is an error -/
def Served (o : Outcome) : Prop := o = .refused ∨ ∃ h, o = .ran h (some r.body)

/-- the bytes that the further read returns -/
def moreData (prior : Mem) (found : List Str) (stack extra : Str) : Str :=
  ((receive prior found).map fun b => extra.take (b.missing stack)).getD []

/-- the whole request has arrived, with a zero behind it -/
def Arrived (prior : Mem) (found : List Str) (data : Str) : Prop :=
  found ≠ [] ∧ 0 ∉ r.text ∧
    (data = [] ∧ found.flatten = r.text ∨
      data ≠ [] ∧ slice prior (found.flatten ++ data).length (r.text.length - (found.flatten ++ data).length + 1) =
        r.text.drop (found.flatten ++ data).length ++ [0])

/-- the string in the buffer names no request -/
def NoName (size : ℕ) (prior : Mem) (found : List Str) (data : Str) : Prop :=
  found ≠ [] ∧ ∃ content n, scanField (held prior found.flatten data) 0 size 0 = .ok (content, n) ∧
    handlerOf content = none

end PostRequest

/-! ## The blank line -/

theorem blankLine_eq : blankLine = [13, 10, 13, 10] := by decide

theorem parsePostData_eq (s : Str) : parsePostData s = (strstr blankLine s).map fun i => s.drop (i + 4) := by
  rw [blankLine_eq]
  fun_induction parsePostData s with
  | case1 data =>
    have hhere : [13, 10, 13, 10] <+: 13 :: 10 :: 13 :: 10 :: data := ⟨data, rfl⟩
    rw [strstr_of_isPrefix hhere]
    rfl
  | case2 c info hnot ih =>
    have hhere : ¬ [13, 10, 13, 10] <+: c :: info := by
      rintro ⟨data, hdata⟩
      obtain ⟨rfl, hinfo⟩ := List.cons.inj hdata
      exact hnot data rfl hinfo.symm
    rw [strstr_cons hhere, ih, Option.map_map]
    rfl
  | case3 => rfl

/-- text behind a blank line: where the blank line is -/
theorem parsePostData_split {s data : Str} (h : parsePostData s = some data) :
    ∃ i, blankLine <+: s.drop i ∧ s.drop (i + 4) = data ∧ i + 4 ≤ s.length := by
  rw [parsePostData_eq] at h
  obtain ⟨i, hi, hdata⟩ := Option.map_eq_some_iff.1 h
  have hpre := (strstr_eq_some_iff.1 hi).2.1
  refine ⟨i, hpre, hdata, ?_⟩
  have hlen := hpre.length_le
  rw [blankLine_eq, List.length_drop] at hlen
  have : [13, 10, 13, (10 : UInt8)].length = 4 := rfl
  omega

namespace PostRequest

variable {r : PostRequest} {content : Str}

theorem text_eq (r : PostRequest) : r.text = r.head ++ (blankLine ++ r.body) := rfl

theorem length_text (r : PostRequest) : r.text.length = r.head.length + (4 + r.body.length) := by
  rw [text_eq, List.length_append, List.length_append, blankLine_eq]
  rfl

theorem length_head_blank (r : PostRequest) : (r.head ++ blankLine).length = r.head.length + 4 := by
  rw [List.length_append, blankLine_eq]
  rfl

theorem head_blank_prefix (r : PostRequest) : r.head ++ blankLine <+: r.text :=
  ⟨r.body, by rw [text_eq, List.append_assoc]⟩

theorem drop_head (r : PostRequest) : r.text.drop (r.head.length + 4) = r.body := by
  rw [text_eq, ← List.append_assoc, ← length_head_blank, List.drop_left]

/-- the blank line behind the head is the first one -/
theorem first_blank {i : ℕ} (h : blankLine <+: r.text.drop i) : r.head.length ≤ i :=
  not_lt.1 fun hlt => (strstr_eq_some_iff.1 r.blank).2.2 i hlt h

/-- a part of the request with a blank line in it has the head -/
theorem head_le {p : Str} (hp : p <+: r.text) {i : ℕ} (h : blankLine <+: p.drop i) : r.head.length ≤ i :=
  first_blank (h.trans (hp.drop i))

/-- a part of the request with the body behind a blank line is the request -/
theorem eq_text_of_prefix (hp : content <+: r.text) {i : ℕ} (hblank : blankLine <+: content.drop i)
    (hbody : content.drop (i + 4) = r.body) (hlen : i + 4 ≤ content.length) : content = r.text := by
  apply hp.eq_of_length_le
  have hhead := head_le hp hblank
  have hrest := congrArg List.length hbody
  rw [List.length_drop] at hrest
  rw [length_text]
  omega

/-- the version stands in the head -/
theorem httpVer_head : httpVer <+: (r.head).drop (Method.post.marker.length + (r.target.length + 1)) := by
  have hsplit : r.head = (Method.post.marker ++ (r.target ++ [32])) ++ (httpVer ++ (bytes "\r\n" ++ r.headers)) := by
    rw [head, postHead, message]
    simp only [List.append_assoc, List.cons_append, List.nil_append]
  have hlen : (Method.post.marker ++ (r.target ++ [32])).length =
      Method.post.marker.length + (r.target.length + 1) := by
    simp only [List.length_append, List.length_singleton]
  rw [hsplit, List.drop_left' hlen]
  exact List.prefix_append _ _

/-- a string that begins with the head and the blank line has no blank line before that -/
theorem no_blank_before (hhead : r.head ++ blankLine <+: content) {i : ℕ} (hi : i < r.head.length) :
    ¬ blankLine <+: content.drop i := by
  intro h
  have hlen : blankLine.length ≤ ((r.head ++ blankLine).drop i).length := by
    rw [List.length_drop, List.length_append]
    omega
  have hin : blankLine <+: (r.head ++ blankLine).drop i := List.prefix_of_prefix_length_le h (hhead.drop i) hlen
  exact absurd (first_blank (hin.trans (r.head_blank_prefix.drop i))) (not_le.2 hi)

/-- a string that begins with the head and the blank line: the handler parses what follows -/
theorem parsePostData_info (hhead : r.head ++ blankLine <+: content) {req info : Str}
    (hreq : parseReq content = some (req, info)) (hne : req ≠ []) :
    parsePostData info = some (content.drop (r.head.length + 4)) := by
  obtain ⟨pos, stop, hver, hpos, rfl⟩ := parseReq_place hreq hne
  have hbegin : r.head <+: content := (List.prefix_append _ _).trans hhead
  -- the version is found in the head, and the name before it
  have hin : pos ≤ r.head.length := by
    have hplace := httpVer_head (r := r)
    have hstop : stop ≤ Method.post.marker.length + (r.target.length + 1) := by
      by_contra hlt
      exact (strstr_eq_some_iff.1 hver).2.2 _ (not_le.1 hlt) (hplace.trans (hbegin.drop _))
    have hlen := hplace.length_le
    have hpos8 : 0 < httpVer.length := by decide
    rw [List.length_drop] at hlen
    omega
  have hfound : strstr blankLine (content.drop pos) = some (r.head.length - pos) := by
    refine strstr_eq_some_iff.2 ⟨?_, ?_, fun j hj => ?_⟩
    · rw [List.length_drop]
      exact Nat.sub_le_sub_right hbegin.length_le pos
    · rw [List.drop_drop, Nat.add_sub_cancel' hin]
      obtain ⟨rest, rfl⟩ := hhead
      rw [List.append_assoc, List.drop_left]
      exact List.prefix_append _ _
    · rw [List.drop_drop]
      exact no_blank_before hhead (by omega)
  rw [parsePostData_eq, hfound, Option.map_some, List.drop_drop]
  congr 2
  omega

end PostRequest

/-! ## The buffer -/

section

variable {prior : Mem} {p data : Str} {size n : ℕ} {content : Str}

theorem slice_held (prior : Mem) (p data : Str) : slice (held prior p data) 0 (p ++ data).length = p ++ data := by
  have hp : slice (held prior p data) 0 p.length = p := by
    rw [held, slice_sameOn (sameOn_putBytes (Or.inl (by omega))), slice_sameOn (sameOn_putBytes (Or.inl (by omega))),
      slice_putBytes]
  rw [List.length_append, slice_add, hp, zero_add, held, slice_putBytes]

theorem held_nil (prior : Mem) (p : Str) : held prior p [] p.length = 0 := by
  have h : slice (putBytes (putBytes prior 0 p) p.length [0]) p.length 1 = [0] := slice_putBytes _ _ [0]
  rw [held, putBytes_nil]
  exact (List.cons.inj h).1

/-- behind a further read the buffer is as it was -/
theorem slice_held_behind (hdata : data ≠ []) (k : ℕ) :
    slice (held prior p data) (p ++ data).length k = slice prior (p ++ data).length k := by
  have hpos : 0 < data.length := List.length_pos_iff.2 hdata
  rw [List.length_append, held, slice_sameOn (sameOn_putBytes (Or.inr le_rfl)),
    slice_sameOn (sameOn_putBytes (Or.inr (by rw [List.length_singleton]; omega))),
    slice_sameOn (sameOn_putBytes (Or.inr (by omega)))]

/-- the string in the buffer is a part of what has arrived, or goes on behind a further read -/
theorem held_string (h : scanField (held prior p data) 0 size 0 = .ok (content, n)) :
    content <+: p ++ data ∨ data ≠ [] ∧ p ++ data <+: content := by
  obtain ⟨-, hzero, -, htext⟩ := scanField_eq_ok_iff.1 h
  have hcontent : slice (held prior p data) 0 content.length = content := by
    rw [slice_add] at htext
    exact (List.append_inj htext (length_slice _ _ _)).1
  obtain hle | hlt := le_or_gt content.length (p ++ data).length
  · left
    rw [← hcontent, ← slice_held prior p data, List.prefix_iff_eq_take, take_slice, length_slice, min_eq_left hle]
  · right
    have hpre : p ++ data <+: content := by
      rw [← hcontent, List.prefix_iff_eq_take, take_slice, min_eq_left hlt.le, slice_held]
    refine ⟨?_, hpre⟩
    rintro rfl
    rw [List.append_nil] at hlt
    refine hzero ?_
    rw [← hcontent, ← held_nil prior p]
    exact List.mem_map.2 ⟨p.length, List.mem_range.2 hlt, by rw [zero_add]⟩

/-- the outcome, once the string is known -/
theorem respondTo_ok {mem : Mem} (h : scanField mem 0 size 0 = .ok (content, n)) :
    (respondTo size mem = .refused ↔ handlerOf content = none) ∧
      ∀ g text, respondTo size mem = .ran g text ↔
        ∃ req info, parseReq content = some (req, info) ∧ responseReq req = some g ∧ parsePostData info = text := by
  rw [respondTo, h, handlerOf]
  dsimp only
  cases hreq : parseReq content with
  | none => simp
  | some r =>
    obtain ⟨req, info⟩ := r
    rw [Option.bind_some]
    cases hg : responseReq req with
    | none => simp [hg]
    | some g' => simp [hg]

theorem respondTo_error {mem : Mem} (h : scanField mem 0 size 0 = .error n) : respondTo size mem = .overrun := by
  rw [respondTo, h]

/-- what has arrived is there: the rest of the text and the zero must be -/
theorem slice_held_eq_iff {text : Str} (hpre : p ++ data <+: text) :
    slice (held prior p data) 0 (text.length + 1) = text ++ [0] ↔
      slice (held prior p data) (p ++ data).length (text.length - (p ++ data).length + 1) =
        text.drop (p ++ data).length ++ [0] := by
  have hlen : text.length + 1 = (p ++ data).length + (text.length - (p ++ data).length + 1) := by
    have := hpre.length_le
    omega
  have htext : text ++ [0] = (p ++ data) ++ (text.drop (p ++ data).length ++ [0]) := by
    rw [← List.append_assoc, ← List.prefix_iff_eq_append.1 hpre]
    simp
  rw [hlen, htext, slice_add, slice_held, zero_add]
  exact List.append_right_inj _

/-- the buffer holds a text as a string iff the text has arrived with a zero behind it -/
theorem held_eq_iff {text : Str} (hsize : text.length < size) (hpre : p ++ data <+: text) :
    (∃ n, scanField (held prior p data) 0 size 0 = .ok (text, n)) ↔
      0 ∉ text ∧ (data = [] ∧ p = text ∨ data ≠ [] ∧
        slice prior (p ++ data).length (text.length - (p ++ data).length + 1) =
          text.drop (p ++ data).length ++ [0]) := by
  rw [exists_scanField_iff, and_iff_right hsize, slice_held_eq_iff hpre]
  refine and_congr_right fun hzero => ?_
  by_cases hdata : data = []
  · subst hdata
    rw [or_iff_left (fun h => h.1 rfl), and_iff_right rfl, List.append_nil] at *
    constructor
    · intro h
      rw [slice_succ, held_nil] at h
      cases hdrop : text.drop p.length with
      | nil =>
        have hle : text.length ≤ p.length := List.drop_eq_nil_iff.1 hdrop
        exact hpre.eq_of_length_le hle
      | cons c rest =>
        rw [hdrop] at h
        obtain ⟨hc, -⟩ := List.cons.inj h
        have hmem : c ∈ text := List.mem_of_mem_drop (hdrop ▸ List.mem_cons_self)
        exact absurd (hc ▸ hmem) hzero
    · rintro rfl
      rw [Nat.sub_self, zero_add, slice_succ, held_nil, List.drop_length]
      rfl
  · rw [slice_held_behind hdata, or_iff_right (fun h => hdata h.1), and_iff_right hdata]

end

/-! ## The request -/

section

variable {size : ℕ} {prior : Mem} {found : List Str} {stack extra : Str}

theorem serve_eq (size : ℕ) (prior : Mem) (stack extra : Str) (hne : found ≠ []) (hall : ∀ f ∈ found, f ≠ [])
    (hlen : found.flatten.length < readBufMaxSize) :
    serve size prior found stack extra =
        respondTo size (held prior found.flatten (PostRequest.moreData prior found stack extra)) ∧
      (PostRequest.moreData prior found stack extra ≠ [] → (parsePostData (cText found.flatten)).isSome) := by
  have harrived : arrived found = found.flatten := by
    rw [arrived, List.takeWhile_eq_self_iff.2 (by simpa using hall), List.take_of_length_le hlen.le]
  have hsome : arrived found ≠ [] := by
    obtain ⟨f, more, rfl⟩ := List.exists_cons_of_ne_nil hne
    rw [harrived, List.flatten_cons]
    exact fun h => hall f List.mem_cons_self (List.append_eq_nil_iff.1 h).1
  obtain ⟨b, hb, hmem, hindex, -⟩ := receive_spec prior hsome
  rw [harrived, if_pos hlen] at hindex
  rw [harrived, hindex] at hmem
  have hmore : PostRequest.moreData prior found stack extra = extra.take (b.missing stack) := by
    rw [PostRequest.moreData, hb, Option.map_some, Option.getD_some]
  constructor
  · rw [serve, hb, hmore, held, ← hmem, ← hindex]
    dsimp only [ClientBuf.readMore]
    split_ifs with hdata
    · rw [hdata, putBytes_nil]
    · rfl
  · intro hdata
    have hcontent : b.content = cText found.flatten := by
      rw [ClientBuf.content, hindex, hmem, slice_sameOn (sameOn_putBytes (Or.inl (by omega))), slice_putBytes]
    by_contra hnone
    rw [Option.not_isSome_iff_eq_none] at hnone
    rw [hmore, ClientBuf.missing, hcontent, hnone] at hdata
    exact hdata rfl

/-- the handler that runs and parses the body has the request as its string -/
theorem PostRequest.content_eq (r : PostRequest) {p data content : Str} {n : ℕ} (hpre : p ++ data <+: r.text)
    (hmore : data ≠ [] → (parsePostData (cText p)).isSome)
    (hscan : scanField (held prior p data) 0 size 0 = .ok (content, n)) {req info : Str}
    (hreq : parseReq content = some (req, info)) (hne : req ≠ []) (hbody : parsePostData info = some r.body) :
    content = r.text := by
  rcases held_string hscan with hpart | ⟨hdata, hlong⟩
  · -- the string is a part of the request, and the body stands behind a blank line of it
    obtain ⟨pos, stop, -, -, rfl⟩ := parseReq_place hreq hne
    obtain ⟨i, hblank, hdrop, hlen⟩ := parsePostData_split hbody
    rw [List.drop_drop] at hblank hdrop
    rw [List.length_drop] at hlen
    exact PostRequest.eq_text_of_prefix (hpart.trans hpre) hblank (by rw [add_assoc]; exact hdrop) (by omega)
  · -- a further read was made, so the head has arrived
    obtain ⟨d, hd⟩ := Option.isSome_iff_exists.1 (hmore hdata)
    obtain ⟨i, hblank, -, hlen⟩ := parsePostData_split hd
    have hcut : cText p <+: p := List.takeWhile_prefix _
    have hp : p <+: r.text := (List.prefix_append _ _).trans hpre
    have hhead : r.head ++ blankLine <+: content := by
      refine List.IsPrefix.trans ?_ ((List.prefix_append p data).trans hlong)
      apply List.prefix_of_prefix_length_le r.head_blank_prefix hp
      have hi := PostRequest.head_le (hcut.trans hp) hblank
      have hle := hcut.length_le
      rw [r.length_head_blank]
      omega
    rw [PostRequest.parsePostData_info hhead hreq hne, Option.some.injEq] at hbody
    obtain ⟨rest, rfl⟩ := hhead
    rw [← r.length_head_blank, List.drop_left] at hbody
    rw [hbody, PostRequest.text_eq, List.append_assoc]

/-- what the loop and the further read have brought is the beginning of the request -/
theorem PostRequest.moreData_prefix {text later : Str} (hsplit : found.flatten ++ (extra ++ later) = text) (prior : Mem)
    (stack : Str) : found.flatten ++ PostRequest.moreData prior found stack extra <+: text := by
  have hmore : PostRequest.moreData prior found stack extra <+: extra := by
    rw [PostRequest.moreData]
    cases receive prior found with
    | none => exact List.nil_prefix
    | some b => exact List.take_prefix _ _
  rw [← hsplit]
  exact (List.prefix_append_right_inj _).2 (hmore.trans (List.prefix_append _ _))

theorem responseReq_ne_nil {req : Str} {g : Handler} (h : responseReq req = some g) : req ≠ [] := by
  rintro rfl
  exact absurd h (by decide +revert)

/-- **The body that the handler sees.** -/
theorem body_seen_iff (r : PostRequest) (size : ℕ) (prior : Mem) (stack : Str) (found : List Str) (extra later : Str)
    (hfit : r.text.length < size) (hmax : r.text.length < readBufMaxSize) (hfound : ∀ f ∈ found, f ≠ [])
    (hsplit : found.flatten ++ (extra ++ later) = r.text) :
    r.Served (serve size prior found stack extra) ↔
      PostRequest.NoName size prior found (PostRequest.moreData prior found stack extra) ∨
        r.Arrived prior found (PostRequest.moreData prior found stack extra) := by
  by_cases hne : found = []
  · -- nothing is read
    subst hne
    have hclosed : serve size prior [] stack extra = .closed := by
      rw [serve, receive_nothing prior (by rw [arrived]; rfl)]
    rw [hclosed]
    refine iff_of_false ?_ fun h => h.elim (fun h => h.1 rfl) (fun h => h.1 rfl)
    rintro (h | ⟨g, h⟩) <;> cases h
  have hlen : found.flatten.length < readBufMaxSize := by
    have := congrArg List.length hsplit
    rw [List.length_append] at this
    omega
  obtain ⟨hserve, hmore⟩ := serve_eq size prior stack extra hne hfound hlen
  have hpre := PostRequest.moreData_prefix hsplit prior stack
  rw [hserve]
  generalize PostRequest.moreData prior found stack extra = data at hmore hpre ⊢
  constructor
  · intro hserved
    cases hscan : scanField (held prior found.flatten data) 0 size 0 with
    | error n =>
      rw [respondTo_error hscan] at hserved
      rcases hserved with h | ⟨g, h⟩ <;> cases h
    | ok c =>
      obtain ⟨content, n⟩ := c
      rcases hserved with href | ⟨g, hran⟩
      · exact Or.inl ⟨hne, content, n, hscan, (respondTo_ok hscan).1.1 href⟩
      · obtain ⟨req, info, hreq, hg, hbody⟩ := ((respondTo_ok hscan).2 g _).1 hran
        obtain rfl := r.content_eq hpre hmore hscan hreq (responseReq_ne_nil hg) hbody
        exact Or.inr ⟨hne, (held_eq_iff hfit hpre).1 ⟨n, hscan⟩⟩
  · rintro (⟨-, content, n, hscan, hnone⟩ | ⟨-, harrived⟩)
    · exact Or.inl ((respondTo_ok hscan).1.2 hnone)
    · obtain ⟨n, hscan⟩ := (held_eq_iff hfit hpre).2 harrived
      cases hg : handlerOf r.text with
      | none => exact Or.inl ((respondTo_ok hscan).1.2 hg)
      | some g =>
        obtain ⟨⟨req, info⟩, hreq, hname⟩ := Option.bind_eq_some_iff.1 hg
        refine Or.inr ⟨g, ((respondTo_ok hscan).2 g _).2 ⟨req, info, hreq, hname, ?_⟩⟩
        rw [PostRequest.parsePostData_info r.head_blank_prefix hreq (responseReq_ne_nil hname), r.drop_head]

end

/-- a request of 48 bytes -/
def playbackPost : PostRequest where
  target := bytes "playback"
  headers := bytes "Content-Length: 2"
  body := bytes "\x7b\x7d"
  blank := by decide +kernel
  contentLength := ⟨[], bytes "2", [], by decide, Or.inl rfl, Or.inl rfl, by unfold Decimal; decide +kernel,
    by decide⟩

/-- the request comes in two reads of the loop, the first of which ends inside its headers -/
theorem body_seen_in_two :
    playbackPost.Served (serve 100 (fun _ => 120) [playbackPost.text.take 30, playbackPost.text.drop 30] [] []) := by
  have hnothing : PostRequest.moreData (fun _ => 120) [playbackPost.text.take 30, playbackPost.text.drop 30] [] [] =
      [] := by
    decide +kernel
  exact (body_seen_iff playbackPost 100 (fun _ => 120) [] [playbackPost.text.take 30, playbackPost.text.drop 30] [] []
    (by decide) (by decide) (by decide) (by decide)).2 (Or.inr ⟨by decide, by decide, Or.inl ⟨hnothing, by decide⟩⟩)

/-- a buffer that holds an 'x' behind the request -/
def usedBuf : Mem := fun i => if i = playbackPost.text.length + 1 then 0 else 120

/-- **Two ways to miss the body**: its last byte comes with the further read, which sets no zero; and the blank line
comes after the first read. -/
theorem body_cut :
    serve 100 usedBuf [playbackPost.text.take 47] [] (playbackPost.text.drop 47) =
        .ran .addPlaybackDev (some (bytes "\x7b\x7dx")) ∧
      ¬ playbackPost.Served (serve 100 usedBuf [playbackPost.text.take 47] [] (playbackPost.text.drop 47)) ∧
      serve 100 usedBuf [playbackPost.text.take 30] [] (playbackPost.text.drop 30) = .ran .addPlaybackDev none ∧
      ¬ playbackPost.Served (serve 100 usedBuf [playbackPost.text.take 30] [] (playbackPost.text.drop 30)) := by
  have hlate : serve 100 usedBuf [playbackPost.text.take 47] [] (playbackPost.text.drop 47) =
      .ran .addPlaybackDev (some (bytes "\x7b\x7dx")) := by decide +kernel
  have hearly : serve 100 usedBuf [playbackPost.text.take 30] [] (playbackPost.text.drop 30) =
      .ran .addPlaybackDev none := by decide +kernel
  refine ⟨hlate, ?_, hearly, ?_⟩
  · rw [hlate]
    rintro (h | ⟨g, h⟩)
    · cases h
    · injection h with _ htext
      exact absurd htext (by decide)
  · rw [hearly]
    rintro (h | ⟨g, h⟩)
    · cases h
    · injection h with _ htext
      cases htext

end StoreService.Http
