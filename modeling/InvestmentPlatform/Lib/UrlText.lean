/-
The scheme and the host of a URL, as `urllib.parse.urlparse` reads them from its text.

What Unicode says of a character, its lower case and its compatibility form, is a parameter.
-/
import InvestmentPlatform.Lib.IpAddress

namespace InvestmentPlatform.UrlText

abbrev Text := List Char

structure Unicode where
  lower : Text → Text
  nfkc : Text → Text

structure Split where
  scheme : Text
  netloc : Text
  deriving DecidableEq, Repr

/-- `_check_bracketed_host`. -/
def bracketedHostOk (host : Text) : Bool :=
  match host with
  | 'v' :: version =>
    let (digits, rest) := version.span fun c => (IpAddress.hexDigit c).isSome
    match rest with
    | '.' :: _ :: _ => digits ≠ []
    | _ => false
  | _ =>
    match IpAddress.ofText host with
    | some (.v6 _ _) => true
    | _ => false

/-- `_checknetloc`. -/
def netlocOk (unicode : Unicode) (netloc : Text) : Bool :=
  let bare := netloc.filter (· ∉ ['@', ':', '#', '?'])
  netloc.all (·.toNat < 128) || unicode.nfkc bare = bare ||
    (unicode.nfkc bare).all (· ∉ ['/', '?', '#', '@', ':'])

def schemeChar (c : Char) : Bool := c.isAlphanum || c ∈ ['+', '-', '.']

/-- `urlsplit`, as far as the scheme and the netloc; `none` where it raises. -/
def urlsplit (unicode : Unicode) (url : Text) : Option Split :=
  let url := (url.dropWhile (·.toNat ≤ 0x20)).filter (· ∉ ['\t', '\r', '\n'])
  let (front, back) := url.span (· ≠ ':')
  let (scheme, rest) :=
    if back ≠ [] ∧ front.head?.any Char.isAlpha ∧ front.all schemeChar then
      (front.map Char.toLower, back.drop 1)
    else ([], url)
  let netloc :=
    if rest.take 2 = ['/', '/'] then (rest.drop 2).takeWhile (· ∉ ['/', '?', '#']) else []
  let bracketed := ((netloc.dropWhile (· ≠ '[')).drop 1).takeWhile (· ≠ ']')
  if ('[' ∈ netloc ∨ ']' ∈ netloc) ∧ ¬ ('[' ∈ netloc ∧ ']' ∈ netloc ∧ bracketedHostOk bracketed) ∨
      ¬ netlocOk unicode netloc then none
  else some ⟨scheme, netloc⟩

/-- `hostname`, where it is not empty. -/
def Split.hostname (unicode : Unicode) (split : Split) : Option Text :=
  let hostinfo := (split.netloc.splitOn '@').getLastD []
  let host :=
    if '[' ∈ hostinfo then ((hostinfo.dropWhile (· ≠ '[')).drop 1).takeWhile (· ≠ ']')
    else hostinfo.takeWhile (· ≠ ':')
  let (name, zone) := host.span (· ≠ '%')
  if host = [] then none else some (unicode.lower name ++ zone)

/-! ### The parts after the host -/

/-- A text up to the first `c`, and what follows that. -/
def cut (c : Char) (text : Text) : Text × Text :=
  (text.takeWhile (· ≠ c), (text.dropWhile (· ≠ c)).drop 1)

/-- The schemes whose last path segment may carry parameters. -/
def usesParams : List String :=
  ["", "ftp", "hdl", "prospero", "http", "https", "shttp", "rtsp", "rtsps", "sip", "sips", "mms",
    "sftp", "tel"]

/-- `_splitparams`: the path, without what follows a semicolon of its last segment. -/
def dropParams (path : Text) : Text :=
  let last := (path.reverse.takeWhile (· ≠ '/')).reverse
  path.take (path.length - last.length) ++ (cut ';' last).1

structure Url extends Split where
  path : Text
  query : Text
  fragment : Text
  deriving DecidableEq, Repr

/-- What follows the scheme and the netloc that `urlsplit` has found. -/
def Split.rest (split : Split) (url : Text) : Text :=
  let url := (url.dropWhile (·.toNat ≤ 0x20)).filter (· ∉ ['\t', '\r', '\n'])
  let rest := url.drop (if split.scheme = [] then 0 else split.scheme.length + 1)
  if rest.take 2 = ['/', '/'] then (rest.drop 2).drop split.netloc.length else rest

/-- `urlparse`; `none` where it raises. -/
def urlparse (unicode : Unicode) (url : Text) : Option Url :=
  (urlsplit unicode url).map fun split =>
    let (front, fragment) := cut '#' (split.rest url)
    let (path, query) := cut '?' front
    let path := if String.ofList split.scheme ∈ usesParams then dropParams path else path
    { split with path, query, fragment }

/-- The fields of `parse_qs`, in their order: those without a value are left out. -/
def parseQs (unquote : Text → Text) (qs : Text) : List (Text × Text) :=
  let plain := fun text : Text => unquote (text.map fun c => if c = '+' then ' ' else c)
  (qs.splitOn '&').filterMap fun field =>
    let (name, value) := cut '=' field
    if value = [] then none else some (plain name, plain value)

end InvestmentPlatform.UrlText

/-!
Paths of URLs: their segments, terms looked for in them, and their normal form.

A path is read twice here.  A substring test reads it as it is written: a term such as `/a/b` is
in a text exactly when, somewhere after the first slash, one segment is `a` and the next one
begins with `b`.  A server reads it after decoding the percent escapes and resolving the empty
and the dot segments; what is left is the normal form.
-/

namespace InvestmentPlatform.UrlPath

abbrev Text := List Char

/-! ### Segments -/

/-- The pieces between the slashes, of which a text has at least one. -/
def segments (text : Text) : List Text := text.splitOn '/'

@[simp] theorem segments_nil : segments [] = [[]] := by
  simp [segments]

@[simp] theorem segments_slash (text : Text) : segments ('/' :: text) = [] :: segments text := by
  simp [segments, List.splitOn, List.splitOnP_cons_eq_if_modifyHead]

variable {c : Char}

theorem segments_cons (hc : c ≠ '/') (text : Text) :
    segments (c :: text) = (segments text).modifyHead (c :: ·) := by
  simp [segments, List.splitOn, List.splitOnP_cons_eq_if_modifyHead, hc]

theorem segments_ne_nil (text : Text) : segments text ≠ [] :=
  List.splitOnP_ne_nil _ text

theorem exists_segments (text : Text) : ∃ s ss, segments text = s :: ss :=
  List.exists_cons_of_ne_nil (segments_ne_nil text)

variable {text p : Text}

/-- The first segment grows by a character that is no slash. -/
theorem segments_cons_of_eq {s : Text} {ss : List Text} (hc : c ≠ '/')
    (h : segments text = s :: ss) : segments (c :: text) = (c :: s) :: ss := by
  rw [segments_cons hc, h, List.modifyHead_cons]

/-- Segments follow a renaming of the characters that keeps the slashes apart. -/
theorem segments_map {f : Char → Char} (hf : ∀ c, f c = '/' ↔ c = '/') (text : Text) :
    segments (text.map f) = (segments text).map (List.map f) := by
  induction text with
  | nil => simp
  | cons c text ih =>
    by_cases hc : c = '/'
    · subst hc
      rw [List.map_cons, (hf '/').mpr rfl, segments_slash, segments_slash, ih]
      rfl
    · obtain ⟨s, ss, hs⟩ := exists_segments text
      have hfc : f c ≠ '/' := fun h => hc ((hf c).mp h)
      rw [hs, List.map_cons] at ih
      rw [List.map_cons, segments_cons_of_eq hfc ih, segments_cons_of_eq hc hs]
      rfl

/-! ### Terms -/

/-- The pieces of a term, with the slashes between them. -/
def join : List Text → Text
  | [] => []
  | [p] => p
  | p :: ps => p ++ '/' :: join ps

/-- The segments begin with the pieces: they are equal one by one, and the last piece begins its
segment. -/
def begins : List Text → List Text → Bool
  | [], _ => true
  | _ :: _, [] => false
  | [p], s :: _ => p.isPrefixOf s
  | p :: ps, s :: ss => p == s && begins ps ss

/-- The pieces begin the segments from some segment on. -/
def within (ps : List Text) : List Text → Bool
  | [] => false
  | s :: ss => begins ps (s :: ss) || within ps ss

/-- No piece of a term has a slash in it. -/
def SlashFree (ps : List Text) : Prop := ∀ p ∈ ps, '/' ∉ p

variable {ps : List Text}

/-- **A text begins with a term exactly when its segments begin with the term's pieces.** -/
theorem join_prefix_iff (h : SlashFree (p :: ps)) :
    join (p :: ps) <+: text ↔ begins (p :: ps) (segments text) = true := by
  induction text generalizing p ps with
  | nil =>
    rw [List.prefix_nil, segments_nil]
    cases ps with
    | nil => simp [join, begins, List.isPrefixOf_iff_prefix]
    | cons q qs => simp [join, begins]
  | cons c text ih =>
    by_cases hc : c = '/'
    · subst hc
      rw [segments_slash]
      cases p with
      | nil =>
        cases ps with
        | nil => simp [join, begins]
        | cons q qs =>
          have hq : SlashFree (q :: qs) := fun r hr => h r (List.mem_cons_of_mem _ hr)
          simp only [join, List.nil_append, List.cons_prefix_cons, true_and, begins, BEq.rfl,
            Bool.true_and]
          exact ih hq
      | cons d p =>
        have hd : d ≠ '/' := fun hd => h (d :: p) List.mem_cons_self (hd ▸ List.mem_cons_self)
        cases ps with
        | nil => simp [join, begins, hd, List.isPrefixOf]
        | cons q qs => simp [join, begins, hd]
    · obtain ⟨s, ss, hs⟩ := exists_segments text
      rw [segments_cons_of_eq hc hs]
      cases p with
      | nil =>
        cases ps with
        | nil => simp [join, begins]
        | cons q qs => simp [join, begins, Ne.symm hc]
      | cons d p =>
        have hp : SlashFree (p :: ps) := by
          intro r hr
          rcases List.mem_cons.mp hr with rfl | hr
          · exact fun hmem => h (d :: r) List.mem_cons_self (List.mem_cons_of_mem _ hmem)
          · exact h r (List.mem_cons_of_mem _ hr)
        have hstep := ih hp
        rw [hs] at hstep
        cases ps with
        | nil =>
          simp only [join, begins, List.isPrefixOf_iff_prefix] at hstep ⊢
          rw [List.cons_prefix_cons, List.cons_prefix_cons, hstep]
        | cons q qs =>
          simp only [join, begins, Bool.and_eq_true, beq_iff_eq] at hstep ⊢
          rw [List.cons_append, List.cons_prefix_cons, hstep, List.cons.injEq, and_assoc]

/-- **A term is in a text exactly when its pieces begin the segments after some slash.** -/
theorem slash_join_infix_iff (h : SlashFree (p :: ps)) :
    '/' :: join (p :: ps) <:+: text ↔ within (p :: ps) (segments text).tail = true := by
  induction text with
  | nil => simp [within]
  | cons c text ih =>
    obtain ⟨s, ss, hs⟩ := exists_segments text
    rw [List.infix_cons_iff, List.cons_prefix_cons, ih]
    by_cases hc : c = '/'
    · subst hc
      rw [join_prefix_iff h, segments_slash, List.tail_cons, hs, within, List.tail_cons]
      simp
    · rw [segments_cons_of_eq hc hs, hs]
      simp [Ne.symm hc]

theorem begins_nil_cons (hp : p ≠ []) (ps ss : List Text) :
    begins (p :: ps) ([] :: ss) = false := by
  cases p with
  | nil => exact absurd rfl hp
  | cons c p => cases ps <;> simp [begins, List.isPrefixOf]

theorem within_nil_cons (hp : p ≠ []) (ps ss : List Text) :
    within (p :: ps) ([] :: ss) = within (p :: ps) ss := by
  rw [within, begins_nil_cons hp, Bool.false_or]

/-- What the segments begin with after some first ones is within all of them. -/
theorem within_of_begins_drop (hps : ps ≠ []) {n : Nat} {segs : List Text}
    (h : begins ps (segs.drop n) = true) : within ps segs = true := by
  induction n generalizing segs with
  | zero =>
    cases segs with
    | nil =>
      cases ps with
      | nil => exact absurd rfl hps
      | cons p ps => simp [begins] at h
    | cons s ss =>
      rw [List.drop_zero] at h
      rw [within, h, Bool.true_or]
  | succ n ih =>
    cases segs with
    | nil =>
      cases ps with
      | nil => exact absurd rfl hps
      | cons p ps => simp [begins] at h
    | cons s ss => rw [within, ih h, Bool.or_true]

/-! ### Leading slashes -/

/-- `text.lstrip("/")`. -/
def lstrip (text : Text) : Text := text.dropWhile (· == '/')

/-- `text.rstrip("/")`. -/
def rstrip (text : Text) : Text := (lstrip text.reverse).reverse

@[simp] theorem lstrip_slash (text : Text) : lstrip ('/' :: text) = lstrip text := by
  simp [lstrip]

theorem lstrip_cons (hc : c ≠ '/') (text : Text) : lstrip (c :: text) = c :: text := by
  simp [lstrip, hc]

theorem lstrip_map {f : Char → Char} (hf : ∀ c, f c = '/' ↔ c = '/') (text : Text) :
    lstrip (text.map f) = (lstrip text).map f := by
  induction text with
  | nil => rfl
  | cons c text ih =>
    by_cases hc : c = '/'
    · subst hc
      rw [List.map_cons, (hf '/').mpr rfl, lstrip_slash, lstrip_slash, ih]
    · have hfc : f c ≠ '/' := fun h => hc ((hf c).mp h)
      rw [List.map_cons, lstrip_cons hfc, lstrip_cons hc, List.map_cons]

/-- Leading slashes hide no term. -/
theorem within_segments_lstrip (hp : p ≠ []) (ps : List Text) (text : Text) :
    within (p :: ps) (segments (lstrip text)) = within (p :: ps) (segments text) := by
  induction text with
  | nil => rfl
  | cons d text ih =>
    by_cases hd : d = '/'
    · subst hd
      rw [segments_slash, within_nil_cons hp, lstrip_slash, ih]
    · rw [lstrip_cons hd]

/-! ### The normal form -/

def hexValue (c : Char) : Option Nat :=
  if '0' ≤ c ∧ c ≤ '9' then some (c.toNat - '0'.toNat)
  else if 'a' ≤ c ∧ c ≤ 'f' then some (c.toNat - 'a'.toNat + 10)
  else if 'A' ≤ c ∧ c ≤ 'F' then some (c.toNat - 'A'.toNat + 10)
  else none

/-- The characters the percent escapes stand for; what is no escape stays. -/
def percentDecode : Text → Text
  | [] => []
  | [c] => [c]
  | [c, d] => [c, d]
  | c :: a :: b :: text =>
    match c == '%', hexValue a, hexValue b with
    | true, some x, some y => Char.ofNat (16 * x + y) :: percentDecode text
    | _, _, _ => c :: percentDecode (a :: b :: text)

/-- The path of a request target, without its query and its fragment. -/
def pathOf (target : Text) : Text := target.takeWhile fun c => c != '?' && c != '#'

/-- Empty segments and `.` go, and `..` takes the segment before it with it. -/
def resolve (acc : List Text) : List Text → List Text
  | [] => acc.reverse
  | s :: ss =>
    if s = [] ∨ s = ['.'] then resolve acc ss
    else if s = ['.', '.'] then resolve acc.tail ss
    else resolve (s :: acc) ss

/-- The segments of a target as a server sees them. -/
def canonical (target : Text) : List Text := resolve [] (segments (percentDecode (pathOf target)))

end InvestmentPlatform.UrlPath
