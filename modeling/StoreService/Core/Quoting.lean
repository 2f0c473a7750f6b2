/-
The words, names and literals of an SQL text, as MySQL reads them in its default mode, and statements with values pasted
between quotes.

A literal stands in single or double quotes and a name in backticks. A doubled quote stands for itself; in a literal a
backslash escapes the character behind it, and stays before '%' and '_' only. `lex` reads a text: blanks and comments
separate, an open literal is an error. A statement is a list of pieces with fixed words and signs and pasted values;
`render` writes it without any escaping.

Rules: `quoted_iff` (a pasted value is read back exactly if it is plain: no closing quote, no backslash except before
'%' and '_') and `lex_take_iff` (the first `k` bytes of a statement are read as this statement exactly if they are all
of it and every value is plain). The argument for a value that is not plain: from its first quote or backslash on, the
reader lags behind the value by a list of such characters, and can only fall back further (`quoted_lag`).
-/
import Mathlib.Tactic

namespace StoreService.Quoting

/-! ## Reading -/

inductive Quote where
  | backtick
  | single
  | double
deriving DecidableEq, Repr

def Quote.char : Quote → UInt8
  | .backtick => 96
  | .single => 39
  | .double => 34

/-- a backslash escapes in literals, not in names -/
def Quote.escapes : Quote → Bool
  | .backtick => false
  | _ => true

def quoteOf (c : UInt8) : Option Quote :=
  if c = 96 then some .backtick else if c = 39 then some .single else if c = 34 then some .double else none

inductive Token where
  /-- a keyword, a bare name or a number -/
  | word (w : List UInt8)
  | ident (v : List UInt8)
  | str (v : List UInt8)
  | sym (c : UInt8)
deriving DecidableEq, Repr

def Quote.token : Quote → List UInt8 → Token
  | .backtick, v => .ident v
  | _, v => .str v

def isSpace (c : UInt8) : Bool := c = 32 || (9 ≤ c && c ≤ 13)

/-- letters, digits, '_', '$' and what is not ASCII -/
def isWord (c : UInt8) : Bool :=
  (48 ≤ c && c ≤ 57) || (65 ≤ c && c ≤ 90) || (97 ≤ c && c ≤ 122) || c = 95 || c = 36 || 128 ≤ c

/-- what a backslash makes of the character behind it -/
def escaped : UInt8 → List UInt8
  | 48 => [0]
  | 98 => [8]
  | 110 => [10]
  | 114 => [13]
  | 116 => [9]
  | 90 => [26]
  | 37 => [92, 37]
  | 95 => [92, 95]
  | c => [c]

/-- the text behind an opening quote: the value and what follows the closing quote -/
def quoted (k : Quote) : List UInt8 → Option (List UInt8 × List UInt8)
  | [] => none
  | [c] => if c = k.char then some ([], []) else none
  | c :: d :: rest =>
    if c = k.char then
      if d = k.char then (quoted k rest).map fun r => (c :: r.1, r.2) else some ([], d :: rest)
    else if k.escapes && c = 92 then (quoted k rest).map fun r => (escaped d ++ r.1, r.2)
    else (quoted k (d :: rest)).map fun r => (c :: r.1, r.2)

/-- what follows the end of a block comment -/
def blockEnd : List UInt8 → List UInt8
  | 42 :: 47 :: rest => rest
  | _ :: rest => blockEnd rest
  | [] => []

/-- what follows a comment, if the text begins with one; the contents of a comment with '!' count -/
def comment : List UInt8 → Option (List UInt8)
  | 35 :: rest => some (rest.dropWhile (· ≠ 10))
  | 45 :: 45 :: rest => if rest.head?.all (· ≤ 32) then some (rest.dropWhile (· ≠ 10)) else none
  | 47 :: 42 :: rest => if rest.head? = some 33 then none else some (blockEnd rest)
  | _ => none

/-- the tokens that a text begins with, none for a blank or a comment, and the rest -/
def next (c : UInt8) (rest : List UInt8) : Option (List Token × List UInt8) :=
  if isSpace c then some ([], rest)
  else
    match comment (c :: rest), quoteOf c with
    | some r, _ => some ([], r)
    | none, some k => (quoted k rest).map fun r => ([k.token r.1], r.2)
    | none, none =>
      if isWord c then some ([.word (c :: rest.takeWhile isWord)], rest.dropWhile isWord) else some ([.sym c], rest)

def lexFuel : ℕ → List UInt8 → Option (List Token)
  | 0, _ => none
  | _ + 1, [] => some []
  | n + 1, c :: rest => (next c rest).bind fun p => (lexFuel n p.2).map (p.1 ++ ·)

/-- the tokens of a text -/
def lex (s : List UInt8) : Option (List Token) := lexFuel (s.length + 1) s

/-! ## Values -/

/-- the characters that end or change a value -/
def Special (k : Quote) (c : UInt8) : Prop := c = k.char ∨ k.escapes ∧ c = 92

instance (k : Quote) (c : UInt8) : Decidable (Special k c) := inferInstanceAs (Decidable (_ ∨ _))

/-- characters that are read as part of a value, and what they stand for -/
inductive Step (k : Quote) : List UInt8 → List UInt8 → Prop where
  | ordinary {c : UInt8} (h : ¬ Special k c) : Step k [c] [c]
  | double : Step k [k.char, k.char] [k.char]
  | escape (h : k.escapes) (d : UInt8) : Step k [92, d] (escaped d)

def prepend (a : List UInt8) (x : Option (List UInt8 × List UInt8)) : Option (List UInt8 × List UInt8) :=
  x.map fun r => (a ++ r.1, r.2)

/-- a value that is read back as it was written: no quote of its own kind, no backslash but before '%' and '_' -/
def Plain (k : Quote) : List UInt8 → Prop
  | [] => True
  | c :: v => c ≠ k.char ∧ (k.escapes → c = 92 → v.head? = some 37 ∨ v.head? = some 95) ∧ Plain k v

instance decidablePlain (k : Quote) : (v : List UInt8) → Decidable (Plain k v)
  | [] => isTrue trivial
  | c :: v =>
    have := decidablePlain k v
    inferInstanceAs (Decidable (c ≠ k.char ∧ (k.escapes → c = 92 → v.head? = some 37 ∨ v.head? = some 95) ∧ Plain k v))

/-- nothing that a closing quote could be taken together with follows it -/
def Ends (k : Quote) (s : List UInt8) : Prop := ∀ c, s.head? = some c → ¬ Special k c

section Values

variable {k : Quote} {c d : UInt8} {s t a u x r : List UInt8}

theorem char_ne_backslash (k : Quote) : k.char ≠ 92 := by cases k <;> decide

theorem prepend_eq_some_iff {y : Option (List UInt8 × List UInt8)} :
    prepend a y = some (u, r) ↔ ∃ u', y = some (u', r) ∧ a ++ u' = u := by
  simp [prepend, Option.map_eq_some_iff]

theorem Step.quoted_append (h : Step k t a) (s : List UInt8) : quoted k (t ++ s) = prepend a (quoted k s) := by
  cases h with
  | @ordinary c h =>
    obtain ⟨hquote, hescape⟩ := not_or.1 h
    cases s with
    | nil => simp [quoted, prepend, hquote]
    | cons d s => simp [quoted, prepend, hquote, hescape]
  | double => simp [quoted, prepend]
  | escape h d => simp [quoted, prepend, (char_ne_backslash k).symm, h]

/-- what is read from behind a step -/
theorem Step.read (hstep : Step k t a) (h : quoted k (t ++ s) = some (u, r)) :
    ∃ u', quoted k s = some (u', r) ∧ a ++ u' = u := by
  rwa [hstep.quoted_append, prepend_eq_some_iff] at h

theorem quoted_close (h : s.head? ≠ some k.char) : quoted k (k.char :: s) = some ([], s) := by
  cases s with
  | nil => simp [quoted]
  | cons d s =>
    have hd : d ≠ k.char := by simpa using h
    simp [quoted, hd]

theorem quoted_backslash (k : Quote) : quoted k [92] = none := by
  simp [quoted, (char_ne_backslash k).symm]

/-- how a text behind an opening quote can begin -/
theorem text_cases (k : Quote) (s : List UInt8) : quoted k s = none ∨
    (∃ s', s'.head? ≠ some k.char ∧ s = k.char :: s') ∨ ∃ t a s', Step k t a ∧ s = t ++ s' := by
  cases s with
  | nil => exact .inl rfl
  | cons c s =>
    by_cases hspecial : Special k c
    · rcases hspecial with rfl | ⟨hesc, rfl⟩
      · by_cases hhead : s.head? = some k.char
        · obtain ⟨s', rfl⟩ := List.head?_eq_some_iff.1 hhead
          exact .inr (.inr ⟨_, _, s', .double, rfl⟩)
        · exact .inr (.inl ⟨s, hhead, rfl⟩)
      · cases s with
        | nil => exact .inl (quoted_backslash k)
        | cons d s => exact .inr (.inr ⟨_, _, s, .escape hesc d, rfl⟩)
    · exact .inr (.inr ⟨_, _, s, .ordinary hspecial, rfl⟩)

theorem length_escaped_le (d : UInt8) : (escaped d).length ≤ 2 := by
  unfold escaped
  split <;> simp

theorem Step.length_le (h : Step k t a) : a.length ≤ t.length := by
  cases h with
  | ordinary h => rfl
  | double => simp
  | escape h d => exact length_escaped_le d

theorem Step.length_pos (h : Step k t a) : 0 < t.length := by cases h <;> simp

/-- a value is shorter than the text it is read from -/
theorem quoted_length (h : quoted k s = some (u, r)) : u.length + r.length < s.length := by
  induction hn : s.length using Nat.strong_induction_on generalizing s u with
  | _ n ih =>
    subst hn
    rcases text_cases k s with hnone | ⟨s', hhead, rfl⟩ | ⟨t, a, s', hstep, rfl⟩
    · rw [hnone] at h
      cases h
    · rw [quoted_close hhead] at h
      obtain ⟨rfl, rfl⟩ := Prod.mk.inj (Option.some.inj h)
      simp
    · obtain ⟨u', h', rfl⟩ := hstep.read h
      have hpos := hstep.length_pos
      have hle := hstep.length_le
      have hlt := ih _ (by rw [List.length_append]; omega) h' rfl
      rw [List.length_append, List.length_append]
      omega

theorem escaped_special (h : Special k d) : escaped d = [d] := by
  rcases h with rfl | ⟨-, rfl⟩
  · cases k <;> rfl
  · rfl

/-- a backslash before a character that is not special: '%' and '_' stay with it, all others lose it -/
theorem escaped_ordinary (h : ¬ Special k d) : (d = 37 ∨ d = 95) ∧ escaped d = [92, d] ∨
    ¬ (d = 37 ∨ d = 95) ∧ ∃ e, ¬ Special k e ∧ escaped d = [e] := by
  have hcontrol : ∀ e ∈ ([0, 8, 10, 13, 9, 26] : List UInt8), ¬ Special k e := by cases k <;> decide +kernel
  unfold escaped
  split
  · exact .inr ⟨by decide, 0, hcontrol 0 (by decide), rfl⟩
  · exact .inr ⟨by decide, 8, hcontrol 8 (by decide), rfl⟩
  · exact .inr ⟨by decide, 10, hcontrol 10 (by decide), rfl⟩
  · exact .inr ⟨by decide, 13, hcontrol 13 (by decide), rfl⟩
  · exact .inr ⟨by decide, 9, hcontrol 9 (by decide), rfl⟩
  · exact .inr ⟨by decide, 26, hcontrol 26 (by decide), rfl⟩
  · exact .inl ⟨.inl rfl, rfl⟩
  · exact .inl ⟨.inr rfl, rfl⟩
  · rename_i h37 h95
    exact .inr ⟨not_or.2 ⟨h37, h95⟩, d, h, rfl⟩

/-- behind a closing quote, no value begins with a special character -/
theorem quoted_head (hs : Ends k s) (h : quoted k s = some (u, r)) : ∃ c u', ¬ Special k c ∧ u = c :: u' := by
  cases s with
  | nil => cases h
  | cons c s =>
    have hc : ¬ Special k c := hs c rfl
    obtain ⟨u', -, rfl⟩ := (Step.ordinary hc).read (s := s) h
    exact ⟨c, u', hc, rfl⟩

/-- two special characters that are read as one -/
theorem Step.pair (hc : Special k c) (hd : Special k d) (hquote : c = k.char → d = k.char) : Step k [c, d] [d] := by
  rcases hc with rfl | ⟨hesc, rfl⟩
  · obtain rfl := hquote rfl
    exact .double
  · have hstep := Step.escape hesc d
    rwa [escaped_special hd] at hstep

/-- how the reader goes on in a text before its closing quote -/
inductive Reads (k : Quote) (s r : List UInt8) : List UInt8 → List UInt8 → Prop where
  /-- the character stands for itself -/
  | ordinary {c : UInt8} {x w : List UInt8} (hc : ¬ Special k c) (h : quoted k (x ++ k.char :: s) = some (w, r)) :
    Reads k s r (c :: x) (c :: w)
  /-- the character ends the value -/
  | closes {x : List UInt8} : Reads k s r x []
  /-- the character is read with the closing quote, and the next comes from behind -/
  | last {c e : UInt8} {w : List UInt8} (hc : Special k c) (he : ¬ Special k e) : Reads k s r [c] (k.char :: e :: w)
  /-- two special characters are read as one -/
  | pair {c d : UInt8} {x w : List UInt8} (hc : Special k c) (hd : Special k d)
    (h : quoted k (x ++ k.char :: s) = some (w, r)) : Reads k s r (c :: d :: x) (d :: w)
  /-- a backslash escapes an ordinary character -/
  | escape {d : UInt8} {x w : List UInt8} (hesc : k.escapes) (hd : ¬ Special k d)
    (h : quoted k (x ++ k.char :: s) = some (w, r)) : Reads k s r (92 :: d :: x) (escaped d ++ w)

theorem quoted_reads (hs : Ends k s) (h : quoted k (x ++ k.char :: s) = some (u, r)) : Reads k s r x u := by
  have hhead : s.head? ≠ some k.char := fun hhead => hs _ hhead (.inl rfl)
  cases x with
  | nil =>
    rw [List.nil_append, quoted_close hhead] at h
    obtain ⟨rfl, -⟩ := Prod.mk.inj (Option.some.inj h)
    exact .closes
  | cons c x =>
    by_cases hc : Special k c
    · cases x with
      | nil =>
        obtain ⟨u', h', rfl⟩ := (Step.pair hc (.inl rfl) fun _ => rfl).read (s := s) h
        obtain ⟨e, w, he, rfl⟩ := quoted_head hs h'
        exact .last hc he
      | cons d x =>
        by_cases hclose : c = k.char ∧ d ≠ k.char
        · obtain ⟨rfl, hd⟩ := hclose
          rw [List.cons_append, quoted_close (by simpa using hd)] at h
          obtain ⟨rfl, -⟩ := Prod.mk.inj (Option.some.inj h)
          exact .closes
        · have hquote : c = k.char → d = k.char := fun hq => not_not.1 fun hd => hclose ⟨hq, hd⟩
          by_cases hd : Special k d
          · obtain ⟨u', h', rfl⟩ := (Step.pair hc hd hquote).read (s := x ++ k.char :: s) h
            exact .pair hc hd h'
          · obtain ⟨hesc, rfl⟩ : k.escapes ∧ c = 92 := hc.resolve_left fun hq => hd (.inl (hquote hq))
            obtain ⟨u', h', rfl⟩ := (Step.escape hesc d).read (s := x ++ k.char :: s) h
            exact .escape hesc hd h'
    · obtain ⟨u', h', rfl⟩ := (Step.ordinary hc).read (s := x ++ k.char :: s) h
      exact .ordinary hc h'

/-- the first character owed is read from two special characters of the text -/
theorem lag_step {b : UInt8} (hs : Ends k s) (hb : Special k b) (hu : ∀ c ∈ u, Special k c)
    (h : quoted k (x ++ k.char :: s) = some (b :: u ++ x, r)) : ∃ c d x', x = c :: d :: x' ∧ Special k c ∧ Special k d ∧
      quoted k (x' ++ k.char :: s) = some (u ++ [c, d] ++ x', r) := by
  have howed : ∀ {c e : UInt8} {w y : List UInt8}, Special k c → e :: w = u ++ c :: y → Special k e := by
    intro c e w y hc heq
    cases u with
    | nil => exact (List.cons.inj heq).1 ▸ hc
    | cons f u => exact (List.cons.inj heq).1 ▸ hu f List.mem_cons_self
  generalize hw : b :: u ++ x = w at h
  cases quoted_reads hs h with
  | ordinary hc h => exact absurd ((List.cons.inj hw).1 ▸ hb) hc
  | closes => cases hw
  | last hc he => exact absurd (howed hc (List.cons.inj hw).2.symm) he
  | @pair c d x w hc hd h' =>
    obtain rfl : u ++ [c, d] ++ x = w := by simpa using (List.cons.inj hw).2
    exact ⟨c, d, x, rfl, hc, hd, h'⟩
  | @escape d x w hesc hd h' =>
    rcases escaped_ordinary hd with ⟨-, he⟩ | ⟨-, e, hne, he⟩
    · rw [he] at hw
      exact absurd (howed (.inr ⟨hesc, rfl⟩) (List.cons.inj hw).2.symm) hd
    · rw [he] at hw
      exact absurd ((List.cons.inj hw).1 ▸ hb) hne

/-- **A reader that lags behind stays behind**: with special characters still owed, a text is never read as what is owed
and itself. Each of them takes two characters of the text, which are special and owed in turn. -/
theorem quoted_lag (hs : Ends k s) (hne : u ≠ []) (hu : ∀ c ∈ u, Special k c) :
    quoted k (x ++ k.char :: s) ≠ some (u ++ x, r) := by
  induction hn : x.length using Nat.strong_induction_on generalizing x u with
  | _ n ih =>
    subst hn
    obtain ⟨b, u, rfl⟩ := List.exists_cons_of_ne_nil hne
    obtain ⟨hb, hu⟩ := List.forall_mem_cons.1 hu
    intro h
    obtain ⟨c, d, x', rfl, hc, hd, h'⟩ := lag_step hs hb hu h
    refine ih x'.length (by simp) (by simp) ?_ rfl h'
    intro e he
    rcases List.mem_append.1 he with he | he
    · exact hu e he
    · rcases List.mem_pair.1 he with rfl | rfl
      · exact hc
      · exact hd

theorem ne_char_of_ordinary (h : ¬ Special k c) : c ≠ k.char := fun hc => h (.inl hc)

/-- a character that is not special does not change whether a value is plain -/
theorem plain_cons (h : ¬ Special k c) {v : List UInt8} : Plain k (c :: v) ↔ Plain k v := by
  refine ⟨fun hp => hp.2.2, fun hp => ⟨ne_char_of_ordinary h, ?_, hp⟩⟩
  intro hesc hc
  exact absurd (.inr ⟨hesc, hc⟩) h

/-- a value that is read back is plain -/
theorem plain_of_quoted (hs : Ends k s) {v : List UInt8} (h : quoted k (v ++ k.char :: s) = some (v, r)) :
    Plain k v := by
  induction hn : v.length using Nat.strong_induction_on generalizing v with
  | _ n ih =>
    subst hn
    obtain ⟨w, hw, hreads⟩ : ∃ w, w = v ∧ Reads k s r v w := ⟨v, rfl, quoted_reads hs h⟩
    cases hreads with
    | @ordinary c x w hc h' =>
      obtain rfl : w = x := (List.cons.inj hw).2
      exact (plain_cons hc).2 (ih w.length (by simp) h' rfl)
    | closes => exact hw ▸ trivial
    | last hc he => cases hw
    | @pair c d x w hc hd h' =>
      obtain ⟨rfl, rfl⟩ : d = c ∧ w = [d] ++ x := by simpa using hw
      exact absurd h' (quoted_lag hs (by simp) (by simpa using hd))
    | @escape d x w hesc hd h' =>
      rcases escaped_ordinary hd with ⟨hd', he⟩ | ⟨-, e, hne, he⟩
      · obtain rfl : w = x := by simpa [he] using hw
        refine ⟨(char_ne_backslash k).symm, fun _ _ => by simpa using hd', ?_⟩
        exact (plain_cons hd).2 (ih w.length (by simp) h' rfl)
      · obtain ⟨rfl, -⟩ : e = 92 ∧ _ := by simpa [he] using hw
        exact absurd (.inr ⟨hesc, rfl⟩) hne

theorem quoted_of_plain (hs : Ends k s) {v : List UInt8} (h : Plain k v) :
    quoted k (v ++ k.char :: s) = some (v, s) := by
  induction hn : v.length using Nat.strong_induction_on generalizing v with
  | _ n ih =>
    subst hn
    cases v with
    | nil => exact quoted_close fun hhead => hs _ hhead (.inl rfl)
    | cons c v =>
      obtain ⟨hchar, hback, hv⟩ := h
      by_cases hc : Special k c
      · obtain ⟨hesc, rfl⟩ := hc.resolve_left hchar
        obtain ⟨d, v', rfl, he⟩ : ∃ d v', v = d :: v' ∧ escaped d = [92, d] := by
          rcases hback hesc rfl with hhead | hhead
          · obtain ⟨v', rfl⟩ := List.head?_eq_some_iff.1 hhead
            exact ⟨37, v', rfl, rfl⟩
          · obtain ⟨v', rfl⟩ := List.head?_eq_some_iff.1 hhead
            exact ⟨95, v', rfl, rfl⟩
        have hread := (Step.escape hesc d).quoted_append (v' ++ k.char :: s)
        rw [ih v'.length (by simp) hv.2.2 rfl, he] at hread
        exact hread
      · have hread := (Step.ordinary hc).quoted_append (v ++ k.char :: s)
        rw [ih v.length (by simp) hv rfl] at hread
        exact hread

/-- **A pasted value is read back exactly if it is plain**, and then the reader stands behind its closing quote. -/
theorem quoted_iff (hs : Ends k s) (v : List UInt8) :
    quoted k (v ++ k.char :: s) = some (v, r) ↔ Plain k v ∧ r = s := by
  constructor
  · intro h
    have hplain := plain_of_quoted hs h
    rw [quoted_of_plain hs hplain] at h
    exact ⟨hplain, (Prod.mk.inj (Option.some.inj h)).2.symm⟩
  · rintro ⟨hplain, rfl⟩
    exact quoted_of_plain hs hplain

end Values

/-! ## Texts -/

section Texts

variable {c : UInt8} {s r w : List UInt8}

theorem length_blockEnd_le (s : List UInt8) : (blockEnd s).length ≤ s.length := by
  induction s using blockEnd.induct with
  | case1 rest =>
    rw [blockEnd, List.length_cons, List.length_cons]
    omega
  | case2 c rest hne ih =>
    rw [blockEnd]
    · exact ih.trans (by simp)
    · exact hne
  | case3 => rfl

theorem length_comment_le (h : comment (c :: s) = some r) : r.length ≤ s.length := by
  have hdrop : ∀ t : List UInt8, (t.dropWhile (· ≠ 10)).length ≤ t.length := fun t =>
    (List.dropWhile_suffix _).length_le
  unfold comment at h
  split at h
  · rename_i rest heq
    obtain ⟨-, rfl⟩ := List.cons.inj heq
    exact Option.some.inj h ▸ hdrop s
  · rename_i rest heq
    obtain ⟨-, rfl⟩ := List.cons.inj heq
    split_ifs at h
    exact Option.some.inj h ▸ (hdrop rest).trans (Nat.le_succ _)
  · rename_i rest heq
    obtain ⟨-, rfl⟩ := List.cons.inj heq
    split_ifs at h
    exact Option.some.inj h ▸ (length_blockEnd_le rest).trans (Nat.le_succ _)
  · cases h

/-- the rest is shorter than the text -/
theorem length_next_le {p : List Token × List UInt8} (h : next c s = some p) : p.2.length ≤ s.length := by
  unfold next at h
  by_cases hspace : isSpace c
  · rw [if_pos hspace] at h
    exact Option.some.inj h ▸ le_rfl
  · rw [if_neg hspace] at h
    split at h
    · rename_i r hcomment
      exact Option.some.inj h ▸ length_comment_le hcomment
    · obtain ⟨r, hr, rfl⟩ := Option.map_eq_some_iff.1 h
      have hlt : r.1.length + r.2.length < s.length := quoted_length hr
      exact Nat.le_of_lt (lt_of_le_of_lt (Nat.le_add_left _ _) hlt)
    · split_ifs at h
      · exact Option.some.inj h ▸ (List.dropWhile_suffix _).length_le
      · exact Option.some.inj h ▸ le_rfl

theorem lexFuel_eq {n m : ℕ} (hn : s.length < n) (hm : s.length < m) : lexFuel n s = lexFuel m s := by
  induction n generalizing m s with
  | zero => exact absurd hn (Nat.not_lt_zero _)
  | succ n ih =>
    cases m with
    | zero => exact absurd hm (Nat.not_lt_zero _)
    | succ m =>
      cases s with
      | nil => rfl
      | cons c s =>
        rw [lexFuel, lexFuel]
        cases hnext : next c s with
        | none => rfl
        | some p =>
          have hlen : p.2.length ≤ s.length := length_next_le hnext
          rw [List.length_cons] at hn hm
          rw [Option.bind_some, Option.bind_some, ih (m := m) (by omega) (by omega)]

theorem lex_nil : lex [] = some [] := rfl

theorem lex_cons (c : UInt8) (s : List UInt8) :
    lex (c :: s) = (next c s).bind fun p => (lex p.2).map (p.1 ++ ·) := by
  rw [lex, lexFuel]
  cases hnext : next c s with
  | none => rfl
  | some p =>
    have hlen : p.2.length ≤ s.length := length_next_le hnext
    rw [Option.bind_some, Option.bind_some, lex, lexFuel_eq (m := p.2.length + 1)]
    · simp only [List.length_cons]
      omega
    · omega

end Texts

/-! ## Statements -/

/-- a piece of a statement -/
inductive Piece where
  | word (w : List UInt8)
  | sym (c : UInt8)
  | space
  /-- a value pasted between two quotes -/
  | value (k : Quote) (v : List UInt8)
deriving DecidableEq, Repr

/-- quotes, the backslash and what comments begin with -/
def marks : List UInt8 := [34, 35, 39, 45, 47, 92, 96]

namespace Piece

def render : Piece → List UInt8
  | word w => w
  | sym c => [c]
  | space => [32]
  | value k v => k.char :: (v ++ [k.char])

/-- what the piece is meant to be read as -/
def tokens : Piece → List Token
  | word w => [.word w]
  | sym c => [.sym c]
  | space => []
  | value k v => [k.token v]

def Plain : Piece → Prop
  | value k v => Quoting.Plain k v
  | _ => True

/-- the word is one, and the sign stands for itself wherever it is -/
def sound : Piece → Bool
  | word w => w ≠ [] && w.all isWord
  | sym c => !isSpace c && !isWord c && c ∉ marks
  | _ => true

/-- pieces that would run together -/
def clash : Piece → Piece → Bool
  | word _, word _ => true
  | value _ _, value _ _ => true
  | _, _ => false

/-- a text that may stand behind the piece -/
def Follows : Piece → List UInt8 → Prop
  | word _, s => ∀ c, s.head? = some c → ¬ isWord c
  | value k _, s => Ends k s
  | _, _ => True

end Piece

/-- the text of a statement -/
def render : List Piece → List UInt8
  | [] => []
  | .word w :: ps => w ++ render ps
  | .sym c :: ps => c :: render ps
  | .space :: ps => 32 :: render ps
  | .value k v :: ps => k.char :: (v ++ k.char :: render ps)

def tokens (ps : List Piece) : List Token := ps.flatMap Piece.tokens

/-- the pieces are sound, none runs into the next, and the last is no blank -/
def wellFormed : List Piece → Bool
  | [] => true
  | p :: ps =>
    p.sound && (match ps with
      | [] => p ≠ .space
      | q :: _ => !p.clash q) && wellFormed ps

section Statements

variable {p q : Piece} {ps : List Piece} {s w : List UInt8} {c : UInt8} {ts : List Token} {k : Quote}

theorem render_cons (p : Piece) (ps : List Piece) : render (p :: ps) = p.render ++ render ps := by
  cases p with
  | value k v => simp [render, Piece.render]
  | _ => rfl

theorem not_marks (h : c ∉ marks) : quoteOf c = none ∧ (∀ s, comment (c :: s) = none) ∧ ∀ k, ¬ Special k c := by
  have hne : ∀ d ∈ marks, c ≠ d := fun d hd hc => h (hc ▸ hd)
  refine ⟨?_, fun s => ?_, fun k => ?_⟩
  · rw [quoteOf, if_neg (hne 96 (by decide)), if_neg (hne 39 (by decide)), if_neg (hne 34 (by decide))]
  · unfold comment
    split
    · rename_i heq
      exact absurd (List.cons.inj heq).1 (hne 35 (by decide))
    · rename_i heq
      exact absurd (List.cons.inj heq).1 (hne 45 (by decide))
    · rename_i heq
      exact absurd (List.cons.inj heq).1 (hne 47 (by decide))
    · rfl
  · have hchar : k.char ∈ marks := by cases k <;> decide
    exact not_or.2 ⟨hne _ hchar, fun hc => hne 92 (by decide) hc.2⟩

theorem isWord_not_marks (h : isWord c) : c ∉ marks := by
  have hmarks : ∀ d ∈ marks, isWord d = false := by decide +kernel
  intro hc
  rw [hmarks c hc] at h
  cases h

theorem isWord_not_space (h : isWord c) : ¬ isSpace c := by
  unfold isWord isSpace at *
  grind

theorem lex_space (s : List UInt8) : lex (32 :: s) = lex s := by
  rw [lex_cons]
  simp [next, isSpace]

theorem lex_sym (h : (Piece.sym c).sound) (s : List UInt8) : lex (c :: s) = (lex s).map (.sym c :: ·) := by
  obtain ⟨⟨hspace, hword⟩, hmarks⟩ : (isSpace c = false ∧ isWord c = false) ∧ c ∉ marks := by
    simpa [Piece.sound] using h
  obtain ⟨hquote, hcomment, -⟩ := not_marks hmarks
  simp [lex_cons, next, hspace, hcomment, hquote, hword]

theorem lex_quote (k : Quote) (s : List UInt8) :
    lex (k.char :: s) = (quoted k s).bind fun r => (lex r.2).map (k.token r.1 :: ·) := by
  have hspace : isSpace k.char = false := by cases k <;> rfl
  have hcomment : comment (k.char :: s) = none := by cases k <;> rfl
  have hquote : quoteOf k.char = some k := by cases k <;> rfl
  rw [lex_cons]
  simp only [next, hspace, hcomment, hquote]
  cases quoted k s <;> rfl

theorem lex_word (hw : ∀ c ∈ w, isWord c) (hne : w ≠ []) (hs : ∀ c, s.head? = some c → ¬ isWord c) :
    lex (w ++ s) = (lex s).map (.word w :: ·) := by
  obtain ⟨c, w, rfl⟩ := List.exists_cons_of_ne_nil hne
  obtain ⟨hc, hw⟩ := List.forall_mem_cons.1 hw
  obtain ⟨hquote, hcomment, -⟩ := not_marks (isWord_not_marks hc)
  have hstop : s.takeWhile isWord = [] ∧ s.dropWhile isWord = s := by
    cases s with
    | nil => exact ⟨rfl, rfl⟩
    | cons d s =>
      have hd : ¬ isWord d := hs d rfl
      simp [hd]
  have htake : (w ++ s).takeWhile isWord = w := by
    rw [List.takeWhile_append_of_pos hw, hstop.1, List.append_nil]
  have hdrop : (w ++ s).dropWhile isWord = s := by
    rw [List.dropWhile_append_of_pos hw, hstop.2]
  rw [List.cons_append, lex_cons]
  simp [next, isWord_not_space hc, hquote, hcomment, hc, htake, hdrop]

/-! Pieces. -/

theorem token_inj {u v : List UInt8} (h : k.token u = k.token v) : u = v := by
  cases k
  · exact Token.ident.inj h
  · exact Token.str.inj h
  · exact Token.str.inj h

/-- a piece and what follows it -/
theorem lex_piece_iff (hp : p.sound) (hs : p.Follows s) :
    lex (p.render ++ s) = some (p.tokens ++ ts) ↔ p.Plain ∧ lex s = some ts := by
  cases p with
  | word w =>
    obtain ⟨hne, hw⟩ : w ≠ [] ∧ ∀ c ∈ w, isWord c := by simpa [Piece.sound] using hp
    rw [Piece.render, lex_word hw hne hs]
    simp [Piece.tokens, Piece.Plain]
  | sym c =>
    rw [Piece.render, List.singleton_append, lex_sym hp]
    simp [Piece.tokens, Piece.Plain]
  | space =>
    rw [Piece.render, List.singleton_append, lex_space]
    simp [Piece.tokens, Piece.Plain]
  | value k v =>
    have htext : (Piece.value k v).render ++ s = k.char :: (v ++ k.char :: s) := by simp [Piece.render]
    rw [htext, lex_quote, Option.bind_eq_some_iff]
    constructor
    · rintro ⟨⟨u, r⟩, hquoted, hts⟩
      obtain ⟨ts', hrest, heq⟩ := Option.map_eq_some_iff.1 hts
      obtain ⟨htoken, rfl⟩ := List.cons.inj heq
      obtain rfl : u = v := token_inj htoken
      obtain ⟨hplain, rfl⟩ := (quoted_iff hs u).1 hquoted
      exact ⟨hplain, hrest⟩
    · rintro ⟨hplain, hrest⟩
      exact ⟨(v, s), quoted_of_plain hs hplain, by rw [hrest]; rfl⟩

/-- a piece that is cut is read as something else -/
theorem lex_cut (hp : p.sound) (hts : p.tokens ++ ts ≠ []) {j : ℕ} (hj : j < p.render.length) :
    lex (p.render.take j) ≠ some (p.tokens ++ ts) := by
  intro h
  cases j with
  | zero =>
    rw [List.take_zero, lex_nil] at h
    exact hts (Option.some.inj h).symm
  | succ j =>
    cases p with
    | word w =>
      obtain ⟨hne, hw⟩ : w ≠ [] ∧ ∀ c ∈ w, isWord c := by simpa [Piece.sound] using hp
      have hcut : w.take (j + 1) ≠ [] := by simpa using hne
      have hread := lex_word (s := []) (fun c hc => hw c (List.mem_of_mem_take hc)) hcut nofun
      rw [List.append_nil, lex_nil] at hread
      have heq := Option.some.inj (hread.symm.trans h)
      have hsame : w.take (j + 1) = w := Token.word.inj (List.cons.inj heq).1
      have hlen := congrArg List.length hsame
      rw [List.length_take] at hlen
      simp only [Piece.render] at hj
      omega
    | sym c => simp [Piece.render] at hj
    | space => simp [Piece.render] at hj
    | value k v =>
      have hlt : j < v.length + 1 := by simpa [Piece.render] using hj
      rw [Piece.render, List.take_succ_cons, lex_quote, Option.bind_eq_some_iff] at h
      obtain ⟨⟨u, r⟩, hquoted, hts'⟩ := h
      obtain ⟨ts', -, heq⟩ := Option.map_eq_some_iff.1 hts'
      obtain rfl : u = v := token_inj (List.cons.inj heq).1
      have hlen := quoted_length hquoted
      rw [List.length_take] at hlen
      omega

theorem sound_of_wellFormed (h : wellFormed (p :: ps)) : p.sound ∧ wellFormed ps := by
  simp only [wellFormed, Bool.and_eq_true] at h
  exact ⟨h.1.1, h.2⟩

theorem tokens_ne_nil (h : wellFormed (p :: ps)) : tokens (p :: ps) ≠ [] := by
  induction ps generalizing p with
  | nil =>
    have hspace : p ≠ .space := by
      simp only [wellFormed, Bool.and_eq_true] at h
      simpa using h.1.2
    cases p with
    | space => exact absurd rfl hspace
    | _ => simp [tokens, Piece.tokens]
  | cons q ps ih =>
    intro hnil
    rw [tokens, List.flatMap_cons, List.append_eq_nil_iff] at hnil
    exact ih (sound_of_wellFormed h).2 hnil.2

/-- the first character behind a word -/
theorem head_not_word (hq : q.sound) (hclash : (Piece.word w).clash q = false) (hc : c ∈ q.render.head?) :
    ¬ isWord c := by
  cases q with
  | word w => cases hclash
  | sym d =>
    obtain rfl : d = c := by simpa [Piece.render] using hc
    simp only [Piece.sound, Bool.and_eq_true] at hq
    simpa using hq.1.2
  | space =>
    obtain rfl : 32 = c := by simpa [Piece.render] using hc
    decide
  | value k v =>
    obtain rfl : k.char = c := by simpa [Piece.render] using hc
    cases k <;> decide

/-- the first character behind a value -/
theorem head_not_marks {v : List UInt8} (hq : q.sound) (hclash : (Piece.value k v).clash q = false)
    (hc : c ∈ q.render.head?) : c ∉ marks := by
  cases q with
  | word w =>
    simp only [Piece.sound, Bool.and_eq_true] at hq
    have hw : ∀ c ∈ w, isWord c := by simpa using hq.2
    exact isWord_not_marks (hw c (List.mem_of_mem_head? hc))
  | sym d =>
    obtain rfl : d = c := by simpa [Piece.render] using hc
    simp only [Piece.sound, Bool.and_eq_true] at hq
    simpa using hq.2
  | space =>
    obtain rfl : 32 = c := by simpa [Piece.render] using hc
    decide
  | value k v => cases hclash

theorem render_ne_nil (hq : q.sound) : q.render ≠ [] := by
  intro hnil
  cases q with
  | word w => simp [Piece.sound, show w = [] from hnil] at hq
  | _ => cases hnil

/-- what a piece begins with may stand behind any piece that it does not clash with -/
theorem follows_render (hq : q.sound) (hclash : p.clash q = false) (s : List UInt8) (j : ℕ) :
    p.Follows ((q.render ++ s).take j) := by
  have hbegin : ∀ {c}, ((q.render ++ s).take j).head? = some c → c ∈ q.render.head? := by
    intro c hc
    obtain ⟨d, l, hrender⟩ := List.exists_cons_of_ne_nil (render_ne_nil hq)
    rw [List.head?_take, List.head?_append, hrender] at hc
    split_ifs at hc
    rw [hrender]
    exact hc
  cases p with
  | word w => exact fun c hc => head_not_word hq hclash (hbegin hc)
  | value k v => exact fun c hc => (not_marks (head_not_marks hq hclash (hbegin hc))).2.2 k
  | _ => trivial

theorem follows_take (h : wellFormed (p :: ps)) (j : ℕ) : p.Follows ((render ps).take j) := by
  cases ps with
  | nil =>
    cases p with
    | word w => simp [Piece.Follows, render]
    | value k v => simp [Piece.Follows, render, Ends]
    | _ => trivial
  | cons q ps =>
    have hclash : p.clash q = false := by
      simp only [wellFormed, Bool.and_eq_true] at h
      simpa using h.1.2
    rw [render_cons]
    exact follows_render (sound_of_wellFormed (sound_of_wellFormed h).2).1 hclash (render ps) j

/-- **The first bytes of a statement are read as the statement exactly if they are all of it and every value is plain.**
Induction over the pieces: what is cut or not plain is the first thing read otherwise. -/
theorem lex_take_iff (h : wellFormed ps) (j : ℕ) :
    lex ((render ps).take j) = some (tokens ps) ↔ (render ps).length ≤ j ∧ ∀ p ∈ ps, p.Plain := by
  induction ps generalizing j with
  | nil => simp [render, tokens, lex_nil]
  | cons p ps ih =>
    have htokens : tokens (p :: ps) = p.tokens ++ tokens ps := List.flatMap_cons
    obtain ⟨hp, hps⟩ := sound_of_wellFormed h
    rw [render_cons, List.length_append]
    by_cases hj : j < p.render.length
    · rw [List.take_append_of_le_length hj.le]
      refine iff_of_false ?_ fun hlen => ?_
      · rw [htokens]
        exact lex_cut hp (htokens ▸ tokens_ne_nil h) hj
      · omega
    · rw [List.take_append, List.take_of_length_le (not_lt.1 hj), htokens, lex_piece_iff hp (follows_take h _), ih hps,
        List.forall_mem_cons]
      have hlen : (render ps).length ≤ j - p.render.length ↔ p.render.length + (render ps).length ≤ j := by omega
      rw [hlen]
      exact and_left_comm

end Statements

end StoreService.Quoting
