import Dmis.Lib.Lists
import Dmis.Lib.PythonText
import Mathlib.Data.List.Infix

/-!
# URLs as Python and as a browser read them

`urlsplit`, `urlunparse` and `urljoin` are Python's (`urllib.parse`); a text on which they raise gives `none`.
`browserClean`, `schemeStart` and `authority` are the steps of the WHATWG parser for the schemes in `special`.

The two agree on the scheme (`splitScheme_eq_schemeStart`) and differ on the ends of a text: Python's callers strip
white space of every script, a browser strips what is not above the blank. `clean_comparable` is what is left of the
difference once a text begins with a character both keep: one reading is the other and some blanks more.
-/

namespace Urls

open Python (isSpace strip)

abbrev Text := List Char

/-! ## Characters -/

/-- A C0 control character or the blank. -/
def isC0Space (c : Char) : Bool := c.toNat ≤ 32

/-- TAB, LF and CR, which both drop wherever they stand. -/
def isBreak (c : Char) : Bool := c = '\t' || c = '\n' || c = '\r'

/-- What a browser takes for a slash. -/
def isSlash (c : Char) : Bool := c = '/' || c = '\\'

def isSchemeChar (c : Char) : Bool := c.isAlphanum || c = '+' || c = '-' || c = '.'

/-- What ends an authority. -/
def isDelimiter (c : Char) : Bool := c = '/' || c = '?' || c = '#'

def dropBreaks (s : Text) : Text := s.filter (!isBreak ·)

/-- What `urlsplit` reads of a text. -/
def pythonClean (s : Text) : Text := dropBreaks (s.dropWhile isC0Space)

/-- What a browser reads of it. -/
def browserClean (s : Text) : Text := dropBreaks ((s.dropWhile isC0Space).rdropWhile isC0Space)

/-! ## Schemes -/

/-- `urlsplit`: the scheme in lower case and what follows its colon. -/
def splitScheme (url : Text) : Option (Text × Text) :=
  let scheme := url.takeWhile (· ≠ ':')
  if ':' ∈ url ∧ scheme.head?.any Char.isAlpha ∧ scheme.all isSchemeChar then
    some (scheme.map Char.toLower, (url.dropWhile (· ≠ ':')).drop 1)
  else none

/-- The scheme state of the browser; `none` once a character does not belong to a scheme. -/
def schemeState : Text → Option (Text × Text)
  | [] => none
  | c :: s =>
    if c = ':' then some ([], s)
    else if isSchemeChar c then (schemeState s).map fun r => (c.toLower :: r.1, r.2)
    else none

def schemeStart : Text → Option (Text × Text)
  | [] => none
  | c :: s => if c.isAlpha then schemeState (c :: s) else none

def httpScheme : Text := ['h', 't', 't', 'p']
def httpsScheme : Text := ['h', 't', 't', 'p', 's']

/-- The schemes behind which a browser looks for a host, `file` apart. -/
def special : List Text := [httpScheme, httpsScheme, ['w', 's'], ['w', 's', 's'], ['f', 't', 'p']]

/-! ## Python's parser -/

structure SplitUrl where
  scheme : Text
  netloc : Text
  path : Text
  params : Text
  query : Text
  fragment : Text
  deriving DecidableEq, Repr

def usesRelative : List String :=
  ["", "ftp", "http", "gopher", "nntp", "imap", "wais", "file", "https", "shttp", "mms", "prospero", "rtsp", "rtspu",
   "sftp", "svn", "svn+ssh", "ws", "wss"]

def usesNetloc : List String :=
  ["", "ftp", "http", "gopher", "nntp", "telnet", "imap", "wais", "file", "mms", "https", "shttp", "snews", "prospero",
   "rtsp", "rtspu", "rsync", "svn", "svn+ssh", "sftp", "nfs", "git", "git+ssh", "ws", "wss"]

def usesParams : List String :=
  ["", "ftp", "hdl", "prospero", "http", "imap", "https", "shttp", "rtsp", "rtspu", "sip", "sips", "mms", "sftp",
   "tel"]

/-- `s.split(c, 1)`, with nothing behind a `c` that is not there. -/
def cut (c : Char) (s : Text) : Text × Text := (s.takeWhile (· ≠ c), (s.dropWhile (· ≠ c)).drop 1)

/-- `_splitparams`: the semicolon is looked for in the last segment. -/
def splitParams (path : Text) : Text × Text :=
  let last := path.rtakeWhile (· ≠ '/')
  (path.rdropWhile (· ≠ '/') ++ (cut ';' last).1, (cut ';' last).2)

/-- The authority behind two slashes and what follows it. -/
def splitNetloc : Text → Text × Text
  | '/' :: '/' :: url => (url.takeWhile (!isDelimiter ·), url.dropWhile (!isDelimiter ·))
  | url => ([], url)

/-- `urlparse(url, scheme)`. `netlocOk` stands for the checks of an authority that raise `ValueError`. -/
def urlparse (netlocOk : Text → Bool) (url scheme : Text) : Option SplitUrl :=
  let (scheme, rest) := (splitScheme (pythonClean url)).getD (scheme, pythonClean url)
  let (netloc, rest) := splitNetloc rest
  let (rest, fragment) := cut '#' rest
  let (path, query) := cut '?' rest
  let (path, params) := if String.ofList scheme ∈ usesParams then splitParams path else (path, [])
  if netloc = [] ∨ netlocOk netloc then some ⟨scheme, netloc, path, params, query, fragment⟩ else none

def urlunparse (u : SplitUrl) : Text :=
  let path := if u.params = [] then u.path else u.path ++ ';' :: u.params
  let located := u.netloc ≠ [] ∨ (u.scheme ≠ [] ∧ String.ofList u.scheme ∈ usesNetloc ∧ path.take 2 ≠ ['/', '/'])
  let rooted := if path = [] ∨ path.head? = some '/' then path else '/' :: path
  let url := if located then '/' :: '/' :: u.netloc ++ rooted else path
  let url := if u.scheme = [] then url else u.scheme ++ ':' :: url
  let url := if u.query = [] then url else url ++ '?' :: u.query
  if u.fragment = [] then url else url ++ '#' :: u.fragment

/-- The segments of the base and the reference before the dots are resolved. -/
def segments (bpath path : Text) : List Text :=
  if path.head? = some '/' then path.splitOn '/'
  else
    let base := bpath.splitOn '/'
    let base := if base.getLast? = some [] then base else base.dropLast
    let all := base ++ path.splitOn '/'
    all.take 1 ++ (all.drop 1).dropLast.filter (· ≠ []) ++ (all.drop 1).getLast?.toList

def resolveDots (segs : List Text) : List Text :=
  let kept := segs.foldl
    (fun done seg => if seg = ['.', '.'] then done.dropLast else if seg = ['.'] then done else done ++ [seg]) []
  if segs.getLast? = some ['.'] ∨ segs.getLast? = some ['.', '.'] then kept ++ [[]] else kept

def mergePath (bpath path : Text) : Text :=
  let merged := ['/'].intercalate (resolveDots (segments bpath path))
  if merged = [] then ['/'] else merged

def urljoin (netlocOk : Text → Bool) (base url : Text) : Option Text :=
  if base = [] then some url
  else if url = [] then some base
  else do
    let b ← urlparse netlocOk base []
    let u ← urlparse netlocOk url b.scheme
    if u.scheme ≠ b.scheme ∨ String.ofList u.scheme ∉ usesRelative then some url
    else if String.ofList u.scheme ∈ usesNetloc ∧ u.netloc ≠ [] then some (urlunparse u)
    else
      let netloc := if String.ofList u.scheme ∈ usesNetloc then b.netloc else u.netloc
      if u.path = [] ∧ u.params = [] then
        let query := if u.query = [] then b.query else u.query
        some (urlunparse ⟨u.scheme, netloc, b.path, b.params, query, u.fragment⟩)
      else some (urlunparse ⟨u.scheme, netloc, mergePath b.path u.path, u.params, u.query, u.fragment⟩)

/-! ## The browser's authority -/

/-- The special authority states: the slashes are skipped, however many there are. -/
def authority (url : Text) : Text := (url.dropWhile isSlash).takeWhile fun c => !(isDelimiter c || c = '\\')

/-- The host and the port, behind the last at sign. -/
def hostText (auth : Text) : Text := auth.rtakeWhile (· ≠ '@')

/-! ## The host by RFC 3986 -/

/-- The expression of appendix B: what follows a scheme and its colon. -/
def behindScheme (url : Text) : Text :=
  let scheme := url.takeWhile fun c => !(isDelimiter c || c = ':')
  match url.drop scheme.length with
  | ':' :: rest => if scheme = [] then url else rest
  | _ => url

/-- The authority component, of a text without the white space around and inside it. -/
def rfcAuthority (url : Text) : Text := (splitNetloc (behindScheme url)).1

/-- The host component: behind the user info, in front of the port. -/
def rfcHost (auth : Text) : Text :=
  let h := hostText auth
  if h.head? = some '[' then h.takeWhile (· ≠ ']') ++ [']'] else h.takeWhile (· ≠ ':')

/-! ## Schemes agree -/

theorem schemeState_eq (url : Text) :
    schemeState url =
      if ':' ∈ url ∧ (url.takeWhile (· ≠ ':')).all isSchemeChar then
        some ((url.takeWhile (· ≠ ':')).map Char.toLower, (url.dropWhile (· ≠ ':')).drop 1)
      else none := by
  induction url with
  | nil => rfl
  | cons c s ih =>
    by_cases hc : c = ':'
    · subst hc
      simp [schemeState]
    · have hc' : ¬ ':' = c := fun h => hc h.symm
      by_cases hs : isSchemeChar c = true
      · rw [schemeState, if_neg hc, if_pos hs, ih]
        simp only [List.takeWhile_cons, List.dropWhile_cons, List.mem_cons, hc, hc', ne_eq, not_false_eq_true,
          decide_true, if_true, false_or, List.all_cons, hs, Bool.true_and, List.map_cons]
        split <;> rfl
      · rw [schemeState, if_neg hc, if_neg hs, if_neg]
        simp [hc, hs]

/-- **The two parsers read the same scheme.** -/
theorem splitScheme_eq_schemeStart (url : Text) : splitScheme url = schemeStart url := by
  cases url with
  | nil => rfl
  | cons c s =>
    unfold splitScheme schemeStart
    by_cases hc : c = ':'
    · subst hc
      have hcolon : Char.isAlpha ':' = false := by decide
      simp [hcolon]
    · dsimp only
      rw [schemeState_eq]
      by_cases ha : c.isAlpha = true
      · simp [hc, ha]
      · simp [hc, ha]

theorem schemeState_append {url s r : Text} (h : schemeState url = some (s, r)) (j : Text) :
    schemeState (url ++ j) = some (s, r ++ j) := by
  induction url generalizing s with
  | nil => cases h
  | cons c url ih =>
    simp only [schemeState, List.cons_append] at h ⊢
    by_cases hc : c = ':'
    · rw [if_pos hc] at h ⊢
      cases h
      rfl
    · rw [if_neg hc] at h ⊢
      by_cases hs : isSchemeChar c = true
      · rw [if_pos hs] at h ⊢
        obtain ⟨⟨s', r'⟩, hr, he⟩ := Option.map_eq_some_iff.1 h
        cases he
        rw [ih hr]
        rfl
      · rw [if_neg hs] at h
        cases h

theorem schemeStart_append {url s r : Text} (h : schemeStart url = some (s, r)) (j : Text) :
    schemeStart (url ++ j) = some (s, r ++ j) := by
  cases url with
  | nil => cases h
  | cons c url =>
    simp only [schemeStart, List.cons_append] at h ⊢
    by_cases ha : c.isAlpha = true
    · rw [if_pos ha] at h ⊢
      exact schemeState_append h j
    · rw [if_neg ha] at h
      cases h

/-- What stands behind a text without the colon is not read. -/
theorem schemeState_of_append {url j s r : Text} (hj : ':' ∉ j) (h : schemeState (url ++ j) = some (s, r)) :
    ∃ r', r = r' ++ j ∧ schemeState url = some (s, r') := by
  induction url generalizing s with
  | nil =>
    rw [List.nil_append, schemeState_eq, if_neg (fun hc => hj hc.1)] at h
    cases h
  | cons c url ih =>
    simp only [schemeState, List.cons_append] at h ⊢
    by_cases hc : c = ':'
    · rw [if_pos hc] at h ⊢
      cases h
      exact ⟨url, rfl, rfl⟩
    · rw [if_neg hc] at h ⊢
      by_cases hs : isSchemeChar c = true
      · rw [if_pos hs] at h ⊢
        obtain ⟨⟨s', r'⟩, hr, he⟩ := Option.map_eq_some_iff.1 h
        cases he
        obtain ⟨r'', hr'', hu⟩ := ih hr
        exact ⟨r'', hr'', by rw [hu]; rfl⟩
      · rw [if_neg hs] at h
        cases h

theorem schemeStart_of_append {url j s r : Text} (hj : ':' ∉ j) (hne : url ≠ [])
    (h : schemeStart (url ++ j) = some (s, r)) : ∃ r', r = r' ++ j ∧ schemeStart url = some (s, r') := by
  cases url with
  | nil => exact absurd rfl hne
  | cons c url =>
    simp only [schemeStart, List.cons_append] at h ⊢
    by_cases ha : c.isAlpha = true
    · rw [if_pos ha] at h ⊢
      exact schemeState_of_append hj h
    · rw [if_neg ha] at h
      cases h

theorem schemeStart_head {url s r : Text} (h : schemeStart url = some (s, r)) :
    ∃ c tl, url = c :: tl ∧ c.isAlpha = true := by
  cases url with
  | nil => cases h
  | cons c tl =>
    refine ⟨c, tl, rfl, ?_⟩
    by_contra ha
    rw [schemeStart, if_neg ha] at h
    cases h

/-! ## Ends agree up to blanks -/

theorem isC0Space_of_isBreak {c : Char} (h : isBreak c = true) : isC0Space c = true := by
  simp only [isBreak, Bool.or_eq_true, decide_eq_true_eq] at h
  rcases h with (rfl | rfl) | rfl <;> decide

theorem dropWhile_append_cons {p : Char → Bool} (pre : Text) {a : Char} (post : Text) (ha : p a = false) :
    ∃ pre', pre' <:+ pre ∧ (pre ++ a :: post).dropWhile p = pre' ++ a :: post := by
  induction pre with
  | nil => exact ⟨[], List.suffix_rfl, by simp [ha]⟩
  | cons c pre ih =>
    by_cases hc : p c = true
    · obtain ⟨pre', hs, he⟩ := ih
      refine ⟨pre', hs.trans (List.suffix_cons c pre), ?_⟩
      rw [List.cons_append, List.dropWhile_cons, if_pos hc, he]
    · exact ⟨c :: pre, List.suffix_rfl, by rw [List.cons_append, List.dropWhile_cons, if_neg hc]⟩

theorem rdropWhile_append_cons {p : Char → Bool} (pre : Text) {a : Char} (post : Text) (ha : p a = false) :
    (pre ++ a :: post).rdropWhile p = pre ++ a :: post.rdropWhile p := by
  induction post using List.reverseRecOn with
  | nil =>
    rw [List.rdropWhile_concat, if_neg (by simp [ha])]
    rfl
  | append_singleton post c ih =>
    have hassoc : pre ++ a :: (post ++ [c]) = (pre ++ a :: post) ++ [c] := by simp
    rw [hassoc, List.rdropWhile_concat, List.rdropWhile_concat, ih]
    split
    · rfl
    · simp

/-- What `rdropWhile` takes away. -/
theorem exists_rdropWhile (p : Char → Bool) (s : Text) : ∃ j, s = s.rdropWhile p ++ j ∧ ∀ c ∈ j, p c = true :=
  ⟨s.rtakeWhile p, (List.rdropWhile_append_rtakeWhile ..).symm, fun _ hc => List.mem_rtakeWhile_imp hc⟩

/-- The first character that is not dropped. -/
theorem exists_first (p : Char → Bool) (s : Text) :
    s.dropWhile p = [] ∨ ∃ pre a post, s = pre ++ a :: post ∧ (∀ c ∈ pre, p c = true) ∧ p a = false := by
  induction s with
  | nil => exact .inl rfl
  | cons c s ih =>
    by_cases hc : p c = true
    · rcases ih with h | ⟨pre, a, post, rfl, hpre, ha⟩
      · exact .inl (by rw [List.dropWhile_cons, if_pos hc, h])
      · refine .inr ⟨c :: pre, a, post, rfl, ?_, ha⟩
        intro d hd
        rcases List.mem_cons.1 hd with rfl | hd
        · exact hc
        · exact hpre d hd
    · exact .inr ⟨[], c, s, rfl, by simp, by simpa using hc⟩

theorem isBreak_of_not_c0 {c : Char} (h : isC0Space c = false) : isBreak c = false := by
  by_contra hb
  rw [isC0Space_of_isBreak (by simpa using hb)] at h
  cases h

theorem dropBreaks_cons {c : Char} (h : isBreak c = false) (s : Text) : dropBreaks (c :: s) = c :: dropBreaks s := by
  simp [dropBreaks, h]

theorem dropBreaks_append (s t : Text) : dropBreaks (s ++ t) = dropBreaks s ++ dropBreaks t := List.filter_append ..

theorem mem_of_mem_dropBreaks {s : Text} {c : Char} (h : c ∈ dropBreaks s) : c ∈ s := List.mem_of_mem_filter h

/-- Two prefixes of one text. -/
theorem comparable {s u v x y : Text} (hu : s = u ++ x) (hv : s = v ++ y) :
    (∃ j, u = v ++ j ∧ ∀ c ∈ j, c ∈ y) ∨ ∃ j, v = u ++ j ∧ ∀ c ∈ j, c ∈ x := by
  rcases List.append_eq_append_iff.1 (hu.symm.trans hv) with ⟨j, rfl, hx⟩ | ⟨j, rfl, hy⟩
  · exact .inr ⟨j, rfl, fun c hc => hx ▸ List.mem_append_left y hc⟩
  · exact .inl ⟨j, rfl, fun c hc => hy ▸ List.mem_append_left x hc⟩

/-- The two readings of a text, from its first character on. -/
theorem clean_eq (pre post : Text) {a : Char} (hpre : ∀ c ∈ pre, isC0Space c = true) (ha : isC0Space a = false) :
    browserClean (pre ++ a :: post) = a :: dropBreaks (post.rdropWhile isC0Space) ∧
      (isSpace a = false → pythonClean (strip (pre ++ a :: post)) = a :: dropBreaks (post.rdropWhile isSpace)) := by
  constructor
  · unfold browserClean
    rw [List.dropWhile_append_of_pos hpre, List.dropWhile_cons, if_neg (by simp [ha])]
    have htail : (a :: post).rdropWhile isC0Space = a :: post.rdropWhile isC0Space :=
      rdropWhile_append_cons [] post ha
    rw [htail, dropBreaks_cons (isBreak_of_not_c0 ha)]
  · intro hs
    obtain ⟨pre', hsub, hdrop⟩ := dropWhile_append_cons pre post hs
    unfold strip pythonClean
    rw [hdrop, rdropWhile_append_cons pre' post hs, List.dropWhile_append_of_pos fun c hc => hpre c (hsub.subset hc),
      List.dropWhile_cons, if_neg (by simp [ha]), dropBreaks_cons (isBreak_of_not_c0 ha)]

/-- **Stripped by Python or by a browser**, a text that begins with a visible character reads the same but for blanks
at its end. -/
theorem clean_comparable {t tl : Text} {a : Char} (h : browserClean t = a :: tl) (ha : isSpace a = false) :
    (∃ j, pythonClean (strip t) = browserClean t ++ j ∧ ∀ c ∈ j, isC0Space c = true) ∨
      ∃ j, browserClean t = pythonClean (strip t) ++ j ∧ ∀ c ∈ j, isSpace c = true := by
  rcases exists_first isC0Space t with hnil | ⟨pre, b, post, rfl, hpre, hb⟩
  · rw [browserClean, hnil] at h
    cases h
  · have hab : b = a := by
      have hcons := (clean_eq pre post hpre hb).1
      rw [h] at hcons
      exact (List.cons.inj hcons).1.symm
    subst hab
    rw [(clean_eq pre post hpre hb).1, (clean_eq pre post hpre hb).2 ha]
    obtain ⟨x, hx, hxs⟩ := exists_rdropWhile isC0Space post
    obtain ⟨y, hy, hys⟩ := exists_rdropWhile isSpace post
    rcases comparable hx hy with ⟨j, hj, hjs⟩ | ⟨j, hj, hjs⟩
    · refine .inr ⟨dropBreaks j, ?_, fun c hc => hys c (hjs c (mem_of_mem_dropBreaks hc))⟩
      rw [hj, dropBreaks_append, List.cons_append]
    · refine .inl ⟨dropBreaks j, ?_, fun c hc => hxs c (hjs c (mem_of_mem_dropBreaks hc))⟩
      rw [hj, dropBreaks_append, List.cons_append]

theorem isSpace_of_isAlphanum {c : Char} (h : c.isAlphanum = true) : isSpace c = false := by
  unfold Char.isAlphanum Char.isAlpha Char.isUpper Char.isLower Char.isDigit at h
  simp only [Bool.or_eq_true, Bool.and_eq_true, decide_eq_true_eq, UInt32.le_iff_toNat_le, ge_iff_le] at h
  have hn : c.toNat = c.val.toNat := rfl
  have h0 : '0'.val.toNat = 48 := rfl
  have h9 : '9'.val.toNat = 57 := rfl
  have hA : 'A'.val.toNat = 65 := rfl
  have hZ : 'Z'.val.toNat = 90 := rfl
  have ha : 'a'.val.toNat = 97 := rfl
  have hz : 'z'.val.toNat = 122 := rfl
  simp only [isSpace, Bool.or_eq_false_iff, Bool.and_eq_false_iff, decide_eq_false_iff_not, List.mem_cons,
    List.not_mem_nil, or_false]
  omega

/-- A scheme the browser reads, Python reads, and what follows differs by blanks at its end. -/
theorem scheme_comparable {t s r : Text} (h : schemeStart (browserClean t) = some (s, r)) :
    ∃ r', splitScheme (pythonClean (strip t)) = some (s, r') ∧
      ((∃ j, r' = r ++ j ∧ ∀ c ∈ j, isC0Space c = true) ∨ ∃ j, r = r' ++ j ∧ ∀ c ∈ j, isSpace c = true) := by
  obtain ⟨a, tl, hc, ha⟩ := schemeStart_head h
  have hvisible : isSpace a = false := isSpace_of_isAlphanum (by simp [Char.isAlphanum, ha])
  rw [splitScheme_eq_schemeStart]
  rcases clean_comparable hc hvisible with ⟨j, hj, hjs⟩ | ⟨j, hj, hjs⟩
  · exact ⟨r ++ j, by rw [hj]; exact schemeStart_append h j, .inl ⟨j, rfl, hjs⟩⟩
  · have hcolon : ':' ∉ j := fun hm => absurd (hjs _ hm) (by decide)
    have hne : pythonClean (strip t) ≠ [] := by
      intro he
      rw [he, hc] at hj
      have := hjs a (by rw [← List.nil_append j, ← hj]; simp)
      rw [hvisible] at this
      cases this
    rw [hj] at h
    obtain ⟨r', hr, hu⟩ := schemeStart_of_append hcolon hne h
    exact ⟨r', hu, .inr ⟨j, hr, hjs⟩⟩

/-! ## Authorities -/

theorem splitNetloc_eq (url : Text) (h : (splitNetloc url).1 ≠ []) :
    url = '/' :: '/' :: ((splitNetloc url).1 ++ (splitNetloc url).2) ∧
      ∀ c ∈ (splitNetloc url).2.head?, isDelimiter c = true := by
  unfold splitNetloc at h ⊢
  split
  · rename_i rest
    refine ⟨by rw [List.takeWhile_append_dropWhile], ?_⟩
    intro c hc
    by_contra hd
    have := List.head?_dropWhile_not (!isDelimiter ·) rest
    rw [hc] at this
    simp [hd] at this
  · rename_i hne
    simp at h

theorem urlparse_eq {netlocOk : Text → Bool} {url scheme : Text} {u : SplitUrl}
    (h : urlparse netlocOk url scheme = some u) :
    u.scheme = ((splitScheme (pythonClean url)).getD (scheme, pythonClean url)).1 ∧
      u.netloc = (splitNetloc ((splitScheme (pythonClean url)).getD (scheme, pythonClean url)).2).1 := by
  unfold urlparse at h
  dsimp only at h
  split at h
  · cases h
    exact ⟨rfl, rfl⟩
  · cases h

/-- A text is cut at the first `c`. -/
theorem eq_cut {c : Char} {s : Text} (h : c ∈ s) :
    s = s.takeWhile (· ≠ c) ++ c :: (s.dropWhile (· ≠ c)).drop 1 := by
  induction s with
  | nil => cases h
  | cons d s ih =>
    by_cases hd : d = c
    · subst hd
      simp
    · have hmem : c ∈ s := (List.mem_cons.1 h).resolve_left fun he => hd he.symm
      rw [List.takeWhile_cons, List.dropWhile_cons, if_pos (by simpa using hd), if_pos (by simpa using hd),
        List.cons_append, ← ih hmem]

theorem not_delimiter_of_isSchemeChar {c : Char} (h : isSchemeChar c = true) : isDelimiter c = false ∧ c ≠ ':' := by
  constructor
  · by_contra hd
    simp only [isDelimiter, Bool.not_eq_false, Bool.or_eq_true, decide_eq_true_eq] at hd
    rcases hd with (rfl | rfl) | rfl <;> exact absurd h (by decide)
  · rintro rfl
    exact absurd h (by decide)

/-- A URL in which Python finds an authority has it by the RFC. -/
theorem rfcAuthority_eq {url : Text} (h : (splitNetloc ((splitScheme url).getD ([], url)).2).1 ≠ []) :
    rfcAuthority url = (splitNetloc ((splitScheme url).getD ([], url)).2).1 := by
  unfold rfcAuthority
  cases hs : splitScheme url with
  | none =>
    rw [hs] at h
    obtain ⟨hurl, -⟩ := splitNetloc_eq _ h
    simp only [Option.getD_none] at hurl ⊢
    rw [hurl]
    rfl
  | some r =>
    have hbehind : behindScheme url = r.2 := by
      unfold splitScheme at hs
      dsimp only at hs
      split at hs
      · rename_i hok
        obtain ⟨hcolon, hhead, hall⟩ := hok
        cases hs
        have hcut := eq_cut hcolon
        generalize url.takeWhile (· ≠ ':') = k at hcut hhead hall
        generalize (url.dropWhile (· ≠ ':')).drop 1 = rest at hcut
        have hk : url.takeWhile (fun c => !(isDelimiter c || c = ':')) = k := by
          rw [hcut]
          refine Relational.takeWhile_append_head (fun c hc => ?_) (by simp)
          simpa using not_delimiter_of_isSchemeChar (List.all_eq_true.1 hall c hc)
        unfold behindScheme
        dsimp only
        rw [hk, hcut, List.drop_left]
        refine if_neg ?_
        rintro rfl
        cases hhead
      · cases hs
    rw [hbehind]
    rfl

/-- A character of a host as every reader takes it. -/
def isPlain (c : Char) : Bool := 32 < c.toNat && !isDelimiter c && c ≠ '\\' && c ≠ '@' && !isSpace c

/-- What stands behind the last at sign keeps a tail without one. -/
theorem hostText_append {auth tl : Text} (h : '@' ∉ tl) : hostText (auth ++ tl) = hostText auth ++ tl := by
  have htl : ∀ c ∈ tl.reverse, (decide (c ≠ '@')) = true := by
    intro c hc
    simp only [ne_eq, decide_eq_true_eq]
    rintro rfl
    exact h (List.mem_reverse.1 hc)
  unfold hostText List.rtakeWhile
  rw [List.reverse_append, List.takeWhile_append_of_pos htl, List.reverse_append, List.reverse_reverse]

theorem hostText_of_notMem {auth : Text} (h : '@' ∉ auth) : hostText auth = auth :=
  List.rtakeWhile_eq_self_iff.2 fun c hc => by
    simp only [ne_eq, decide_eq_true_eq]
    rintro rfl
    exact h hc

end Urls
