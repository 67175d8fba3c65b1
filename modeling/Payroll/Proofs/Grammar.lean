import Payroll.Proofs.Spelling
import Payroll.Proofs.Token
/-!
# The grammar of texts

A text writes a tree if it is put together as the grammar says: leaves that are single tokens, items and
members with commas between them, brackets around them, and blanks wherever two tokens meet. That is so
exactly where its tokens are those of the tree, so blanks that change nothing else change nothing.

## Key results

- `tokens_eq_append_iff`: a text can be cut wherever its tokens have a bracket, a comma or a colon
- `writes_iff`: the texts that write a tree are those with its tokens
-/

namespace Payroll.Json

open Payroll.Text (Source)

/-! ## The grammar -/

/-- All of the characters are blanks that may stand between tokens. -/
def IsSpaces (s : Source) : Prop :=
  ∀ c ∈ s, ∃ space, c = some space ∧ isSpace space = true

mutual

/-- The text writes the tree. -/
inductive Writes : Source → Tree → Prop
  | leaf {s : Source} {t : Token} : t.IsLeaf → tokens s = [t] → Writes s (.leaf t)
  | array {before s after : Source} {xs : List Tree} : IsSpaces before → WritesItems s xs →
      IsSpaces after → Writes (before ++ some '[' :: (s ++ some ']' :: after)) (.array xs)
  | object {before s after : Source} {ms : List (Option String × Tree)} : IsSpaces before →
      WritesMembers s ms → IsSpaces after →
      Writes (before ++ some '\x7b' :: (s ++ some '\x7d' :: after)) (.object ms)

/-- The text writes items with commas between them. -/
inductive WritesItems : Source → List Tree → Prop
  | none {s : Source} : IsSpaces s → WritesItems s []
  | one {s : Source} {x : Tree} : Writes s x → WritesItems s [x]
  | more {s rest : Source} {x y : Tree} {xs : List Tree} : Writes s x → WritesItems rest (y :: xs) →
      WritesItems (s ++ some ',' :: rest) (x :: y :: xs)

/-- The text writes members, each a key and its value, with commas between them. -/
inductive WritesMembers : Source → List (Option String × Tree) → Prop
  | none {s : Source} : IsSpaces s → WritesMembers s []
  | one {text s : Source} {key : Option String} {x : Tree} : tokens text = [.text key] → Writes s x →
      WritesMembers (text ++ some ':' :: s) [(key, x)]
  | more {text s rest : Source} {key : Option String} {x : Tree} {m : Option String × Tree}
      {ms : List (Option String × Tree)} : tokens text = [.text key] → Writes s x →
      WritesMembers rest (m :: ms) →
      WritesMembers (text ++ some ':' :: (s ++ some ',' :: rest)) ((key, x) :: m :: ms)

end

/-! ## What is read from the front of a text -/

/-- What is read up to the rest is read from the text before it, however much of the rest is there. -/
def ReadsTo {β : Type} (f : Source → β) (s rest : Source) (read : Source → β) : Prop :=
  ∃ front, s = front ++ rest ∧ ∀ r, r <+: rest → f (front ++ r) = read r

theorem readsTo_nil {β : Type} {f read : Source → β} (h : f [] = read []) : ReadsTo f [] [] read := by
  refine ⟨[], rfl, fun r hr => ?_⟩
  rw [List.prefix_nil.mp hr]
  exact h

/-- Digits are read from the text before the rest. -/
theorem spanDigits_readsTo {s rest : Source} {ds : List Nat} (h : spanDigits s = (ds, rest)) :
    ReadsTo spanDigits s rest fun r => (ds, r) := by
  induction s generalizing ds with
  | nil =>
    cases h
    exact readsTo_nil rfl
  | cons c s ih =>
    cases hc : digit? c with
    | none =>
      simp only [spanDigits, hc] at h
      cases h
      refine ⟨[], rfl, fun r hr => ?_⟩
      rcases List.prefix_cons_iff.mp hr with rfl | ⟨r, rfl, -⟩
      · rfl
      · simp [spanDigits, hc]
    | some d =>
      simp only [spanDigits, hc] at h
      cases h
      obtain ⟨front, hs, hfront⟩ := ih rfl
      refine ⟨c :: front, congrArg (c :: ·) hs, fun r hr => ?_⟩
      simp [spanDigits, hc, hfront r hr]

/-- A fraction is read from the text before the rest. -/
theorem fraction?_readsTo {s rest : Source} {ds : List Nat} (h : fraction? s = some (ds, rest)) :
    ReadsTo fraction? s rest fun r => some (ds, r) := by
  cases s with
  | nil =>
    cases h
    exact readsTo_nil rfl
  | cons c s =>
    by_cases hc : c = some '.'
    · subst hc
      rw [fraction?_point] at h
      split at h
      · cases h
      · rename_i hne
        have hspan : spanDigits s = (ds, rest) := Option.some.inj h
        rw [hspan] at hne
        obtain ⟨front, rfl, hfront⟩ := spanDigits_readsTo hspan
        refine ⟨some '.' :: front, rfl, fun r hr => ?_⟩
        rw [List.cons_append, fraction?_point, hfront r hr]
        exact if_neg hne
    · rw [fraction?_of_ne (by simpa using hc)] at h
      cases h
      refine ⟨[], rfl, fun r hr => fraction?_of_ne ?_⟩
      rcases List.prefix_cons_iff.mp hr with rfl | ⟨r, rfl, -⟩
      · simp
      · simpa using hc

/-- A sign stands before the digits of an exponent, whatever the digits after the first one. -/
theorem exponentSign_front (s : Source) : ∃ sign, s = sign ++ (exponentSign s).2 ∧
    ∀ c ∈ (exponentSign s).2.head?, ∀ r, exponentSign (sign ++ c :: r) = ((exponentSign s).1, c :: r) := by
  unfold exponentSign
  split
  · exact ⟨[some '+'], rfl, fun _ _ _ => rfl⟩
  · exact ⟨[some '-'], rfl, fun _ _ _ => rfl⟩
  · rename_i hplus hminus
    refine ⟨[], rfl, fun c hc r => ?_⟩
    obtain ⟨s, rfl⟩ : ∃ s', s = c :: s' := List.head?_eq_some_iff.mp hc
    rw [List.nil_append]
    split
    · rename_i heq
      exact absurd (by rw [(List.cons.inj heq).1]) (hplus s)
    · rename_i heq
      exact absurd (by rw [(List.cons.inj heq).1]) (hminus s)
    · rfl

/-- An exponent is read from the text before the rest. -/
theorem exponent?_readsTo {s rest : Source} {negative : Bool} {ds : List Nat}
    (h : exponent? s = some (negative, ds, rest)) :
    ReadsTo exponent? s rest fun r => some (negative, ds, r) := by
  cases s with
  | nil =>
    cases h
    exact readsTo_nil rfl
  | cons c s =>
    by_cases hc : ∃ letter, c = some letter ∧ (letter = 'e' ∨ letter = 'E')
    · obtain ⟨letter, rfl, hletter⟩ := hc
      rw [exponent?_letter s hletter] at h
      split at h
      · cases h
      · rename_i hdigits
        obtain ⟨hnegative, hspan⟩ := Prod.mk.inj (Option.some.inj h)
        obtain ⟨sign, hs, hsign⟩ := exponentSign_front s
        obtain ⟨front, hfront, hread⟩ := spanDigits_readsTo hspan
        rw [hspan] at hdigits
        -- There are digits, so the front has a first character, which the sign comes before.
        obtain ⟨d, front, rfl⟩ : ∃ d front', front = d :: front' := by
          cases front with
          | nil => exact absurd (Prod.mk.inj (hread [] List.nil_prefix)).1.symm hdigits
          | cons d front => exact ⟨d, front, rfl⟩
        refine ⟨some letter :: (sign ++ d :: front), by rw [hs, hfront]; simp, fun r hr => ?_⟩
        have hlonger := hsign d (by rw [hfront]; rfl) (front ++ r)
        rw [List.cons_append, List.append_assoc, List.cons_append, exponent?_letter _ hletter, hlonger]
        rw [← List.cons_append, hread r hr, hnegative]
        exact if_neg hdigits
    · have he : c ≠ some 'e' := fun h => hc ⟨'e', h, .inl rfl⟩
      have hE : c ≠ some 'E' := fun h => hc ⟨'E', h, .inr rfl⟩
      rw [exponent?_of_ne (by simpa using he) (by simpa using hE)] at h
      cases h
      refine ⟨[], rfl, fun r hr => ?_⟩
      rcases List.prefix_cons_iff.mp hr with rfl | ⟨r, rfl, -⟩
      · rfl
      · exact exponent?_of_ne (by simpa using he) (by simpa using hE)

/-- A number is read from the text before the rest. -/
theorem numeral?_readsTo {s rest : Source} {negative : Bool} {n : Numeral}
    (h : numeral? negative s = some (n, rest)) :
    ReadsTo (numeral? negative) s rest fun r => some (n, r) := by
  unfold numeral? at h
  rcases hspan : spanDigits s with ⟨whole, r₀⟩
  simp only [hspan, Option.bind_eq_bind] at h
  split at h
  · simp at h
  · rename_i hwhole
    obtain ⟨⟨fraction, r₁⟩, hfraction, h⟩ := Option.bind_eq_some_iff.mp h
    obtain ⟨⟨exponentNegative, exponent, r₂⟩, hexponent, h⟩ := Option.bind_eq_some_iff.mp h
    cases h
    -- Each part has its own front, and for each the parts after it count as what follows.
    obtain ⟨front₀, rfl, hfront₀⟩ := spanDigits_readsTo hspan
    obtain ⟨front₁, rfl, hfront₁⟩ := fraction?_readsTo hfraction
    obtain ⟨front₂, rfl, hfront₂⟩ := exponent?_readsTo hexponent
    refine ⟨front₀ ++ (front₁ ++ front₂), by simp, fun r hr => ?_⟩
    have hr₁ : front₂ ++ r <+: front₂ ++ r₂ := (List.prefix_append_right_inj front₂).mpr hr
    have hr₀ := (List.prefix_append_right_inj front₁).mpr hr₁
    unfold numeral?
    simp only [List.append_assoc, hfront₀ _ hr₀, hwhole, Option.bind_eq_bind]
    rw [hfront₁ _ hr₁, Option.bind_some, hfront₂ r hr]
    rfl

/-- What an escape stands for is read from the text before the rest. -/
theorem escape?_readsTo {s rest : Source} {p : Piece} (h : escape? s = some (p, rest)) :
    ReadsTo escape? s rest fun r => some (p, r) := by
  unfold escape? at h
  split at h
  · rename_i a b c d _
    obtain ⟨n, hn, heq⟩ := Option.map_eq_some_iff.mp h
    cases heq
    exact ⟨[some 'u', some a, some b, some c, some d], rfl, fun r _ => by simp [escape?, hn]⟩
  · rename_i c _ _
    obtain ⟨e, he, heq⟩ := Option.map_eq_some_iff.mp h
    cases heq
    have halone : escape? [some c] = some (.char e, []) := by simp [escape?, he]
    exact ⟨[some c], rfl, fun r _ => escape?_append halone r⟩
  · cases h

/-- A text up to its closing quote is read from the text before the rest. -/
theorem pieces?_readsTo {s rest : Source} {ps : List Piece} (h : pieces? s = some (ps, rest)) :
    ReadsTo pieces? s rest fun r => some (ps, r) := by
  -- Besides the ends that fail: a gap, the closing quote, an escape, and a character as it stands.
  fun_induction pieces? s generalizing ps with
  | case1 => cases h
  | case2 s ih =>
    obtain ⟨⟨qs, r'⟩, hr, heq⟩ := Option.map_eq_some_iff.mp h
    cases heq
    obtain ⟨front, rfl, hfront⟩ := ih hr
    refine ⟨none :: front, rfl, fun r hshorter => ?_⟩
    rw [List.cons_append, pieces?, hfront r hshorter]
    rfl
  | case3 s =>
    cases h
    exact ⟨[some '"'], rfl, fun r _ => by simp [pieces?]⟩
  | case4 s p after he hquote ih =>
    obtain ⟨⟨qs, r'⟩, hr, heq⟩ := Option.map_eq_some_iff.mp h
    cases heq
    obtain ⟨escaped, rfl, hescaped⟩ := escape?_readsTo he
    obtain ⟨front, rfl, hfront⟩ := ih hr
    refine ⟨some '\\' :: (escaped ++ front), by simp, fun r hshorter => ?_⟩
    have hlonger := hescaped _ ((List.prefix_append_right_inj front).mpr hshorter)
    rw [List.cons_append, List.append_assoc, pieces?_backslash hlonger, hfront r hshorter]
    rfl
  | case5 => cases h
  | case6 => cases h
  | case7 c s hquote hslash hc ih =>
    obtain ⟨⟨qs, r'⟩, hr, heq⟩ := Option.map_eq_some_iff.mp h
    cases heq
    obtain ⟨front, rfl, hfront⟩ := ih hr
    refine ⟨some c :: front, rfl, fun r hshorter => ?_⟩
    rw [List.cons_append, pieces?_plain _ hquote hslash hc, hfront r hshorter]
    rfl

/-- A word is read from the text before the rest. -/
theorem afterWord?_readsTo {word : List Char} {s rest : Source} (h : afterWord? word s = some rest) :
    ReadsTo (afterWord? word) s rest some := by
  unfold afterWord? at h
  split at h
  · rename_i hword
    cases h
    refine ⟨s.take word.length, (List.take_append_drop _ s).symm, fun r _ => ?_⟩
    have halone : afterWord? word (s.take word.length) = some [] := by
      rw [afterWord?, List.take_take, Nat.min_self, if_pos hword]
      simp
    exact afterWord?_append halone r
  · cases h

/-- A token is read from the text before the rest. -/
theorem token?_readsTo {c : Char} {s rest : Source} {t : Token} (h : token? c s = some (t, rest)) :
    ReadsTo (token? c) s rest fun r => some (t, r) := by
  -- Brackets, commas and colons have nothing behind their character; the others are what they start.
  unfold token? at h
  split at h
  case h_1 | h_2 | h_3 | h_4 | h_5 | h_6 =>
    cases h
    exact ⟨[], rfl, fun r _ => rfl⟩
  case h_7 =>
    obtain ⟨⟨ps, r⟩, hr, heq⟩ := Option.map_eq_some_iff.mp h
    cases heq
    obtain ⟨front, rfl, hfront⟩ := pieces?_readsTo hr
    exact ⟨front, rfl, fun r hshorter => by simp [token?, hfront r hshorter]⟩
  case h_8 | h_9 | h_10 =>
    obtain ⟨r, hr, heq⟩ := Option.map_eq_some_iff.mp h
    cases heq
    obtain ⟨front, rfl, hfront⟩ := afterWord?_readsTo hr
    exact ⟨front, rfl, fun r hshorter => by simp [token?, hfront r hshorter]⟩
  case h_11 =>
    obtain ⟨⟨m, r⟩, hm, heq⟩ := Option.map_eq_some_iff.mp h
    cases heq
    obtain ⟨front, rfl, hfront⟩ := numeral?_readsTo hm
    exact ⟨front, rfl, fun r hshorter => by simp [token?, hfront r hshorter]⟩
  case h_12 =>
    obtain ⟨⟨m, r⟩, hm, heq⟩ := Option.map_eq_some_iff.mp h
    cases heq
    obtain ⟨front, hs, hfront⟩ := numeral?_readsTo hm
    cases front with
    | nil =>
      have hnone : none = some (m, []) := hfront [] List.nil_prefix
      cases hnone
    | cons d front =>
      obtain ⟨rfl, rfl⟩ := List.cons.inj hs
      refine ⟨front, rfl, fun r hshorter => ?_⟩
      have hlonger := hfront r hshorter
      rw [List.cons_append] at hlonger
      unfold token?
      simp [hlonger]

/-! ## Texts that are cut -/

/-- Only its own character is read as a bracket, a comma or a colon, and nothing is read with it. -/
theorem eq_of_token?_sign {t : Token} {c d : Char} {s rest : Source} (hsign : t.sign? = some c)
    (h : token? d s = some (t, rest)) : d = c ∧ rest = s := by
  unfold token? at h
  split at h
  case h_1 | h_2 | h_3 | h_4 | h_5 | h_6 =>
    cases h
    cases hsign
    exact ⟨rfl, rfl⟩
  all_goals
    obtain ⟨_, -, heq⟩ := Option.map_eq_some_iff.mp h
    cases heq
    cases hsign

/-- A text is cut in two where its tokens have a bracket, a comma or a colon. -/
theorem exists_cut {s : Source} {t : Token} {c : Char} {ts us : List Token} (hsign : t.sign? = some c)
    (h : tokens s = ts ++ t :: us) :
    ∃ s₁ s₂, s = s₁ ++ some c :: s₂ ∧ tokens s₁ = ts ∧ tokens s₂ = us := by
  have hbroken (ts : List Token) : [.broken] ≠ ts ++ t :: us := by
    intro heq
    cases ts with
    | nil =>
      cases heq
      cases hsign
    | cons t' ts => simp at heq
  fun_induction tokens s generalizing ts with
  | case1 => simp at h
  | case2 => exact (hbroken ts h).elim
  | case3 d s hd ih =>
    obtain ⟨s₁, s₂, rfl, rfl, hs₂⟩ := ih h
    exact ⟨some d :: s₁, s₂, rfl, tokens_space s₁ hd, hs₂⟩
  | case4 d s hd t' after ht ih =>
    cases ts with
    | nil =>
      cases h
      obtain ⟨rfl, rfl⟩ := eq_of_token?_sign hsign ht
      exact ⟨[], after, rfl, by rw [tokens], rfl⟩
    | cons t'' ts =>
      obtain ⟨rfl, hafter⟩ := List.cons.inj h
      obtain ⟨s₁, s₂, rfl, rfl, hs₂⟩ := ih hafter
      -- The token ends before the cut, so it is the same without what comes after the cut.
      obtain ⟨front, rfl, hfront⟩ := token?_readsTo ht
      have hshorter := hfront s₁ (List.prefix_append s₁ _)
      exact ⟨some d :: (front ++ s₁), s₂, by simp, tokens_cons (by simpa using hd) hshorter, hs₂⟩
  | case5 => exact (hbroken ts h).elim

/-- The texts whose tokens have a bracket, a comma or a colon are two texts with its character between
them. -/
theorem tokens_eq_append_iff {s : Source} {t : Token} {c : Char} {ts us : List Token}
    (hsign : t.sign? = some c) (hts : .broken ∉ ts) :
    tokens s = ts ++ t :: us ↔ ∃ s₁ s₂, s = s₁ ++ some c :: s₂ ∧ tokens s₁ = ts ∧ tokens s₂ = us := by
  constructor
  · exact exists_cut hsign
  · rintro ⟨s₁, s₂, rfl, rfl, rfl⟩
    rw [tokens_append hts (endsNumber_sign hsign s₂), tokens_sign hsign]

theorem isSpaces_iff {s : Source} : IsSpaces s ↔ tokens s = [] := by
  constructor
  · intro h
    induction s with
    | nil => rw [tokens]
    | cons c s ih =>
      obtain ⟨⟨space, rfl, hspace⟩, hs⟩ := List.forall_mem_cons.mp h
      rw [tokens_space s hspace, ih hs]
  · intro h
    fun_induction tokens s with
    | case1 => simp [IsSpaces]
    | case3 c s hc ih => exact List.forall_mem_cons.mpr ⟨⟨c, rfl, hc⟩, ih h⟩
    | case2 | case4 | case5 => cases h

/-- The texts whose tokens stand between brackets are texts between the brackets, with blanks around
them. -/
theorem tokens_eq_between_iff {s : Source} {t u : Token} {c d : Char} {ts : List Token}
    (ht : t.sign? = some c) (hu : u.sign? = some d) (hts : .broken ∉ ts) :
    tokens s = t :: (ts ++ [u]) ↔ ∃ before inner after,
      s = before ++ some c :: (inner ++ some d :: after) ∧
        IsSpaces before ∧ tokens inner = ts ∧ IsSpaces after := by
  have hopen : tokens s = [] ++ t :: (ts ++ [u]) ↔ _ := tokens_eq_append_iff ht List.not_mem_nil
  constructor
  · intro h
    obtain ⟨before, _, rfl, hbefore, h⟩ := hopen.mp h
    obtain ⟨inner, after, rfl, hinner, hafter⟩ := (tokens_eq_append_iff hu hts).mp h
    exact ⟨before, inner, after, rfl, isSpaces_iff.mpr hbefore, hinner, isSpaces_iff.mpr hafter⟩
  · rintro ⟨before, inner, after, rfl, hbefore, hinner, hafter⟩
    have hclose := (tokens_eq_append_iff hu hts).mpr ⟨inner, after, rfl, hinner, isSpaces_iff.mp hafter⟩
    exact hopen.mpr ⟨before, _, rfl, isSpaces_iff.mp hbefore, hclose⟩

/-! ## The texts that write a tree -/

mutual

/-- No token of a sound tree is broken. -/
theorem Tree.broken_not_mem_tokens : ∀ x : Tree, x.IsSound → .broken ∉ x.tokens
  | .leaf t, h => by
    rw [Tree.tokens, List.mem_singleton]
    rintro rfl
    exact h
  | .array xs, h => by
    have := broken_not_mem_itemTokens xs h
    simp [Tree.tokens, this]
  | .object ms, h => by
    have := broken_not_mem_memberTokens ms h
    simp [Tree.tokens, this]

theorem broken_not_mem_itemTokens : ∀ xs : List Tree, ItemsSound xs → .broken ∉ itemTokens xs
  | [], _ => by simp [itemTokens]
  | [x], h => Tree.broken_not_mem_tokens x h.1
  | x :: y :: xs, h => by
    have hx := Tree.broken_not_mem_tokens x h.1
    have hxs := broken_not_mem_itemTokens (y :: xs) h.2
    simp [itemTokens, hx, hxs]

theorem broken_not_mem_memberTokens : ∀ ms : List (Option String × Tree), MembersSound ms →
    .broken ∉ memberTokens ms
  | [], _ => by simp [memberTokens]
  | [(key, x)], h => by
    have := Tree.broken_not_mem_tokens x h.1
    simp [memberTokens, this]
  | (key, x) :: (next, y) :: ms, h => by
    have hx := Tree.broken_not_mem_tokens x h.1
    have hms := broken_not_mem_memberTokens ((next, y) :: ms) h.2
    simp [memberTokens, hx, hms]

end

mutual

/-- The texts that write a tree are those with its tokens. -/
-- Each form of tree is cut at its own marks, and what lies between them is smaller.
theorem writes_iff : ∀ {x : Tree} {s : Source}, Writes s x ↔ x.IsSound ∧ tokens s = x.tokens
  | .leaf t, s => by
    constructor
    · rintro (⟨ht, hs⟩ | _)
      exact ⟨ht, hs⟩
    · rintro ⟨ht, hs⟩
      exact .leaf ht hs
  | .array xs, s => by
    have hcut (hxs : ItemsSound xs) :
        tokens s = .openArray :: (itemTokens xs ++ [.closeArray]) ↔ _ :=
      tokens_eq_between_iff rfl rfl (broken_not_mem_itemTokens xs hxs)
    rw [Tree.tokens]
    constructor
    · rintro (_ | ⟨hbefore, hs, hafter⟩ | _)
      obtain ⟨hxs, hs⟩ := writesItems_iff.mp hs
      exact ⟨hxs, (hcut hxs).mpr ⟨_, _, _, rfl, hbefore, hs, hafter⟩⟩
    · rintro ⟨hxs, h⟩
      obtain ⟨before, s, after, rfl, hbefore, hs, hafter⟩ := (hcut hxs).mp h
      exact .array hbefore (writesItems_iff.mpr ⟨hxs, hs⟩) hafter
  | .object ms, s => by
    have hcut (hms : MembersSound ms) :
        tokens s = .openObject :: (memberTokens ms ++ [.closeObject]) ↔ _ :=
      tokens_eq_between_iff rfl rfl (broken_not_mem_memberTokens ms hms)
    rw [Tree.tokens]
    constructor
    · rintro (_ | _ | ⟨hbefore, hs, hafter⟩)
      obtain ⟨hms, hs⟩ := writesMembers_iff.mp hs
      exact ⟨hms, (hcut hms).mpr ⟨_, _, _, rfl, hbefore, hs, hafter⟩⟩
    · rintro ⟨hms, h⟩
      obtain ⟨before, s, after, rfl, hbefore, hs, hafter⟩ := (hcut hms).mp h
      exact .object hbefore (writesMembers_iff.mpr ⟨hms, hs⟩) hafter

theorem writesItems_iff : ∀ {xs : List Tree} {s : Source},
    WritesItems s xs ↔ ItemsSound xs ∧ tokens s = itemTokens xs
  | [], s => by
    constructor
    · rintro (hs | _ | _)
      exact ⟨trivial, isSpaces_iff.mp hs⟩
    · rintro ⟨-, hs⟩
      exact .none (isSpaces_iff.mpr hs)
  | [x], s => by
    constructor
    · rintro (_ | hx | _)
      obtain ⟨hx, hs⟩ := writes_iff.mp hx
      exact ⟨⟨hx, trivial⟩, hs⟩
    · rintro ⟨⟨hx, -⟩, hs⟩
      exact .one (writes_iff.mpr ⟨hx, hs⟩)
  | x :: y :: xs, s => by
    have hcut (hx : x.IsSound) : tokens s = x.tokens ++ .comma :: itemTokens (y :: xs) ↔ _ :=
      tokens_eq_append_iff rfl (x.broken_not_mem_tokens hx)
    rw [itemTokens]
    constructor
    · rintro (_ | _ | ⟨hx, hrest⟩)
      obtain ⟨hx, hs⟩ := writes_iff.mp hx
      obtain ⟨hxs, hrest⟩ := writesItems_iff.mp hrest
      exact ⟨⟨hx, hxs⟩, (hcut hx).mpr ⟨_, _, rfl, hs, hrest⟩⟩
    · rintro ⟨⟨hx, hxs⟩, h⟩
      obtain ⟨s, rest, rfl, hs, hrest⟩ := (hcut hx).mp h
      exact .more (writes_iff.mpr ⟨hx, hs⟩) (writesItems_iff.mpr ⟨hxs, hrest⟩)

theorem writesMembers_iff : ∀ {ms : List (Option String × Tree)} {s : Source},
    WritesMembers s ms ↔ MembersSound ms ∧ tokens s = memberTokens ms
  | [], s => by
    constructor
    · rintro (hs | _ | _)
      exact ⟨trivial, isSpaces_iff.mp hs⟩
    · rintro ⟨-, hs⟩
      exact .none (isSpaces_iff.mpr hs)
  | [(key, x)], s => by
    have hcut : tokens s = [.text key] ++ .colon :: x.tokens ↔ _ :=
      tokens_eq_append_iff rfl (by simp)
    rw [memberTokens]
    constructor
    · rintro (_ | ⟨hkey, hx⟩ | _)
      obtain ⟨hx, hs⟩ := writes_iff.mp hx
      exact ⟨⟨hx, trivial⟩, hcut.mpr ⟨_, _, rfl, hkey, hs⟩⟩
    · rintro ⟨⟨hx, -⟩, h⟩
      obtain ⟨text, s, rfl, hkey, hs⟩ := hcut.mp h
      exact .one hkey (writes_iff.mpr ⟨hx, hs⟩)
  | (key, x) :: m :: ms, s => by
    have hcolon : tokens s = [.text key] ++ .colon :: (x.tokens ++ .comma :: memberTokens (m :: ms)) ↔
        _ := tokens_eq_append_iff rfl (by simp)
    have hcomma (s : Source) (hx : x.IsSound) :
        tokens s = x.tokens ++ .comma :: memberTokens (m :: ms) ↔ _ :=
      tokens_eq_append_iff rfl (x.broken_not_mem_tokens hx)
    rw [memberTokens]
    constructor
    · rintro (_ | _ | ⟨hkey, hx, hrest⟩)
      obtain ⟨hx, hs⟩ := writes_iff.mp hx
      obtain ⟨hms, hrest⟩ := writesMembers_iff.mp hrest
      exact ⟨⟨hx, hms⟩, hcolon.mpr ⟨_, _, rfl, hkey, (hcomma _ hx).mpr ⟨_, _, rfl, hs, hrest⟩⟩⟩
    · rintro ⟨⟨hx, hms⟩, h⟩
      obtain ⟨text, _, rfl, hkey, h⟩ := hcolon.mp h
      obtain ⟨s, rest, rfl, hs, hrest⟩ := (hcomma _ hx).mp h
      exact .more hkey (writes_iff.mpr ⟨hx, hs⟩) (writesMembers_iff.mpr ⟨hms, hrest⟩)

end

/-- A text writes one tree at most. -/
theorem Writes.unique {s : Source} {x y : Tree} (hx : Writes s x) (hy : Writes s y) : x = y := by
  obtain ⟨hsound, htokens⟩ := writes_iff.mp hx
  obtain ⟨hsound', htokens'⟩ := writes_iff.mp hy
  have hfront := frontTree?_tokens hsound []
  rw [← htokens, htokens', frontTree?_tokens hsound' []] at hfront
  exact (Prod.mk.inj (Option.some.inj hfront)).1.symm

/-! ## The trees that are written -/

theorem isSpaces_nil : IsSpaces [] :=
  List.forall_mem_nil _

theorem exists_writesItems_iff {xs : List Tree} :
    (∃ s, WritesItems s xs) ↔ ∀ x ∈ xs, ∃ s, Writes s x := by
  induction xs with
  | nil => simpa using ⟨[], .none isSpaces_nil⟩
  | cons x xs ih =>
    rw [List.forall_mem_cons, ← ih]
    constructor
    · rintro ⟨_, _ | hx | ⟨hx, hxs⟩⟩
      · exact ⟨⟨_, hx⟩, [], .none isSpaces_nil⟩
      · exact ⟨⟨_, hx⟩, _, hxs⟩
    · rintro ⟨⟨s, hx⟩, rest, hxs⟩
      cases xs with
      | nil => exact ⟨s, .one hx⟩
      | cons y xs => exact ⟨_, .more hx hxs⟩

theorem exists_writesMembers_iff {ms : List (Option String × Tree)} :
    (∃ s, WritesMembers s ms) ↔
      ∀ m ∈ ms, (∃ text, tokens text = [.text m.1]) ∧ ∃ s, Writes s m.2 := by
  induction ms with
  | nil => simpa using ⟨[], .none isSpaces_nil⟩
  | cons m ms ih =>
    obtain ⟨key, x⟩ := m
    rw [List.forall_mem_cons, ← ih]
    constructor
    · rintro ⟨_, _ | ⟨hkey, hx⟩ | ⟨hkey, hx, hms⟩⟩
      · exact ⟨⟨⟨_, hkey⟩, _, hx⟩, [], .none isSpaces_nil⟩
      · exact ⟨⟨⟨_, hkey⟩, _, hx⟩, _, hms⟩
    · rintro ⟨⟨⟨text, hkey⟩, s, hx⟩, rest, hms⟩
      cases ms with
      | nil => exact ⟨_, .one hkey hx⟩
      | cons m ms => exact ⟨_, .more hkey hx hms⟩

/-- An array is written by some text if each of its items is. -/
theorem exists_writes_array_iff {xs : List Tree} :
    (∃ s, Writes s (.array xs)) ↔ ∀ x ∈ xs, ∃ s, Writes s x := by
  rw [← exists_writesItems_iff]
  constructor
  · rintro ⟨_, _ | ⟨-, hs, -⟩ | _⟩
    exact ⟨_, hs⟩
  · rintro ⟨s, hs⟩
    exact ⟨_, .array isSpaces_nil hs isSpaces_nil⟩

/-- An object is written by some text if the key and the value of each of its members are, so in any order of
the members. -/
theorem exists_writes_object_iff {ms : List (Option String × Tree)} :
    (∃ s, Writes s (.object ms)) ↔
      ∀ m ∈ ms, (∃ text, tokens text = [.text m.1]) ∧ ∃ s, Writes s m.2 := by
  rw [← exists_writesMembers_iff]
  constructor
  · rintro ⟨_, _ | _ | ⟨-, hs, -⟩⟩
    exact ⟨_, hs⟩
  · rintro ⟨s, hs⟩
    exact ⟨_, .object isSpaces_nil hs isSpaces_nil⟩

/-- Any text is written as a key. -/
theorem exists_tokens_eq_text (key : String) : ∃ text, tokens text = [.text (some key)] := by
  have hquote := tokens_quote key []
  rw [tokens] at hquote
  exact ⟨_, hquote⟩

theorem exists_writes_null : ∃ s, Writes s (.leaf .null) := by
  have hnull : tokens [some 'n', some 'u', some 'l', some 'l'] = .null :: tokens [] :=
    tokens_cons (by decide) rfl
  rw [tokens] at hnull
  exact ⟨_, .leaf trivial hnull⟩

end Payroll.Json
