/-
`canonicalize_url` of `app/normalization.py`, over the `urllib.parse` of Python 3.12.

A URL is split, its host, port, path and query are put into one form, and it is put together again.
The split raises on brackets that do not enclose an address and on hosts that change under
compatibility normalisation, and the port on what is no number up to 65535.
-/
import InvestmentPlatform.Lib.UrlText
import InvestmentPlatform.Stage2.Taxonomy

namespace InvestmentPlatform.News

open UrlText

/-- `unquote` and `quote_plus`. -/
structure Quoting where
  unquote : Text → Text
  quotePlus : Text → Text

/-- `SplitResult.port`; `none` where it raises. -/
def port (netloc : Text) : Option (Option Nat) :=
  let hostinfo := (netloc.splitOn '@').getLastD []
  let text :=
    if '[' ∈ hostinfo then
      (cut ':' (cut ']' ((hostinfo.dropWhile (· ≠ '[')).drop 1)).2).2
    else (cut ':' hostinfo).2
  if text = [] then some none
  else if text.all Char.isDigit then
    let number := text.foldl (fun n c => n * 10 + (c.toNat - '0'.toNat)) 0
    if number ≤ 65535 then some (some number) else none
  else none

/-- `re.sub(r"/+", "/", path)`; `inRun` says that the last character was a slash. -/
def collapseSlashes (inRun : Bool) : Text → Text
  | [] => []
  | c :: rest =>
      if c = '/' then
        if inRun then collapseSlashes true rest else '/' :: collapseSlashes true rest
      else c :: collapseSlashes false rest

def trackingParams : List Text :=
  ["utm_source", "utm_medium", "utm_campaign", "utm_term", "utm_content", "fbclid", "gclid"].map
    String.toList

/-- `parse_qsl(query, keep_blank_values=True)`. -/
def parseQsl (quoting : Quoting) (query : Text) : List (Text × Text) :=
  let plain := fun text : Text => quoting.unquote (text.map fun c => if c = '+' then ' ' else c)
  (query.splitOn '&').filterMap fun field =>
    if field = [] then none else some (plain (cut '=' field).1, plain (cut '=' field).2)

/-- `urlencode`. -/
def urlencode (quoting : Quoting) (fields : List (Text × Text)) : Text :=
  ['&'].intercalate (fields.map fun field =>
    quoting.quotePlus field.1 ++ '=' :: quoting.quotePlus field.2)

/-- `uses_netloc`, but for the empty scheme. -/
def usesNetloc : List String :=
  ["ftp", "http", "gopher", "nntp", "telnet", "imap", "wais", "file", "mms", "https", "shttp",
    "snews", "prospero", "rtsp", "rtsps", "rtspu", "rsync", "svn", "svn+ssh", "sftp", "nfs", "git",
    "git+ssh", "ws", "wss"]

/-- `urlunsplit`, without a fragment. -/
def urlunsplit (scheme netloc path query : Text) : Text :=
  let slashed := if path ≠ [] ∧ path.head? ≠ some '/' then '/' :: path else path
  let located :=
    if netloc ≠ [] then "//".toList ++ netloc ++ slashed
    else if path.take 2 = "//".toList then "//".toList ++ path
    else if scheme ≠ [] ∧ String.ofList scheme ∈ usesNetloc ∧
        (path = [] ∨ path.head? = some '/') then "//".toList ++ path
    else path
  let url := if scheme = [] then located else scheme ++ ':' :: located
  if query = [] then url else url ++ '?' :: query

/-- Pairs of texts in the order of their code points. -/
def pairLe (a b : Text × Text) : Bool := a.1 < b.1 || (a.1 = b.1 && !(b.2 < a.2))

/-- `canonicalize_url`; `none` where it raises. -/
def canonicalizeUrl (unicode : Unicode) (quoting : Quoting) (url : Text) : Option Text :=
  let url := Stage2.strip url
  (urlsplit unicode url).bind fun split => (port split.netloc).map fun number =>
    let host := unicode.lower ((split.hostname unicode).getD [])
    let suffix := match number with
      | some n => if n = 0 ∨ n = 80 ∨ n = 443 then [] else ':' :: (toString n).toList
      | none => []
    let (path, query) := cut '?' (cut '#' (split.rest url)).1
    let collapsed := collapseSlashes false (if path = [] then ['/'] else path)
    let path := if collapsed ≠ ['/'] ∧ collapsed.getLast? = some '/' then collapsed.dropLast
      else collapsed
    let fields := ((parseQsl quoting query).filter fun field =>
      !trackingParams.contains field.1).insertionSort fun a b => pairLe a b
    urlunsplit (unicode.lower split.scheme) (host ++ suffix) path (urlencode quoting fields)

end InvestmentPlatform.News
