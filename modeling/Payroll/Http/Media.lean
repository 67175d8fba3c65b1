import Payroll.Text.Blank
/-!
Media types of bodies. A body is JSON if its type is `application/json`, or another type of
`application` whose last suffix is `json`; the parameters that follow must be well formed.
-/

namespace Payroll.Http

/-- A character of a header's value that can be shown: the ASCII characters from the blank to the
tilde, and the tab. -/
def isShown (c : Char) : Bool :=
  (' ' ≤ c && c ≤ '~') || c = '\t'

/-- A character of a name. -/
def isNameChar (c : Char) : Bool :=
  c.isAlphanum || "!#$%&'*+-.^_`|~".toList.contains c

/-- A character within quotes. -/
def isQuotable (c : Char) : Bool :=
  31 < c.toNat && c.toNat != 127

/-- The text after the closing quote. The first character never closes. -/
def afterQuote? (first : Bool) : List Char → Option (List Char)
  | [] => none
  | c :: cs =>
    if c = '"' && !first then some cs
    else if isQuotable c then afterQuote? false cs
    else none

theorem length_afterQuote? {first : Bool} {cs rest : List Char}
    (h : afterQuote? first cs = some rest) : rest.length < cs.length := by
  fun_induction afterQuote? first cs with
  | case1 => cases h
  | case2 => cases h; simp
  | case3 _ _ _ _ _ ih => have := ih h; simp only [List.length_cons]; omega
  | case4 => cases h

/-- The text after a value and the semicolon that ends it; the empty text if none does. -/
def afterValue? (cs : List Char) : Option (List Char) :=
  match cs with
  | '"' :: rest =>
    match afterQuote? true rest with
    | none => none
    | some r =>
      match r.dropWhile (· = ' ') with
      | [] => some []
      | c :: r => if c = ';' then some r else none
  | _ =>
    match cs.dropWhile isNameChar with
    | [] => some []
    | c :: r => if c = ';' && (cs.head?.map isNameChar).getD false then some r else none

theorem length_dropWhile_le (p : Char → Bool) (cs : List Char) :
    (cs.dropWhile p).length ≤ cs.length :=
  (List.dropWhile_suffix p).length_le

theorem length_afterValue? {cs rest : List Char} (h : afterValue? cs = some rest) :
    rest.length ≤ cs.length := by
  unfold afterValue? at h
  split at h
  · rename_i quoted
    split at h
    · cases h
    · rename_i r hq
      have hr := length_afterQuote? hq
      have hd := length_dropWhile_le (· = ' ') r
      split at h
      · cases h; simp
      · rename_i c r' hc
        rw [hc] at hd
        split at h
        · cases h; simp only [List.length_cons] at hd ⊢; omega
        · cases h
  · have hd := length_dropWhile_le isNameChar cs
    split at h
    · cases h; simp
    · rename_i c r' hc
      rw [hc] at hd
      split at h
      · cases h; simp only [List.length_cons] at hd; omega
      · cases h

/-- The text is a list of parameters: names with values, each after blanks. -/
def areParameters (cs : List Char) : Bool :=
  match cs with
  | [] => true
  | c :: cs =>
    if c = ' ' then areParameters cs
    else match _h : (c :: cs).dropWhile isNameChar with
      | [] => false
      | e :: rest =>
        if e = '=' && isNameChar c then
          match _h' : afterValue? rest with
          | some rest => areParameters rest
          | none => false
        else false
termination_by cs.length
decreasing_by
  · simp
  · have h1 := length_dropWhile_le isNameChar (c :: cs)
    have h2 := length_afterValue? _h'
    rw [_h] at h1
    simp only [List.length_cons] at h1 ⊢
    omega

/-- The part of a subtype before its last plus sign, if one stands after the first character, and
the part after it. -/
def suffixed (cs : List Char) : List Char × Option (List Char) :=
  match cs.drop 1 |>.reverse |>.dropWhile (· != '+') with
  | [] => (cs, none)
  | _ :: front =>
    let front := cs.take 1 ++ front.reverse
    (front, some (cs.drop (front.length + 1)))

/-- The media type is one of JSON. -/
def isJson (value : String) : Bool :=
  let cs := value.toList
  let kind := cs.takeWhile fun c => isNameChar c
  match cs.drop kind.length with
  | '/' :: rest =>
    let subtype := rest.takeWhile isNameChar
    let parameters := match rest.drop subtype.length with
      | [] => true
      | ';' :: more => !subtype.isEmpty && areParameters more
      | _ => false
    let (name, suffix) := suffixed (subtype.map Char.toLower)
    cs.all isShown && parameters && kind.map Char.toLower == "application".toList &&
      (name == "json".toList || suffix == some "json".toList)
  | _ => false

end Payroll.Http
