import JobRunner.Lib.Escape
import JobRunner.Jobctl.Api
import JobRunner.Qbo.TokenForm

/-!
# The URLs of the requests (`jobctl::qbo`)

`Session::get` writes the URL by hand: the company's URL, the path, and the parameters, each
followed by `&`, with the minor version behind them.

- `percentEncode`: the encoder of `jobctl`.
- `url`: the URL.
- `url_eq`: its query, as a list of pairs.
- `url_carries_params`: a server reads the parameters back, and no others.
-/

open Text

namespace JobRunner.Jobctl

/-- `MINOR_VERSION`. -/
def minorVersion : String := "75"

/-- The bytes that `percent_encode` keeps. -/
def keepsByte (byte : UInt8) : Bool :=
  let n := byte.toNat
  -- `A`..`Z`, `a`..`z`, `0`..`9`, `-`, `.`, `_` and `~`
  (65 ≤ n && n ≤ 90) || (97 ≤ n && n ≤ 122) || (48 ≤ n && n ≤ 57) || n = 45 || n = 46 ||
    n = 95 || n = 126

/-- `percent_encode` of `jobctl`. -/
def percentEncode (value : String) : String :=
  (utf8 value).foldl (fun out byte =>
    if keepsByte byte then out.push (Char.ofNat byte.toNat)
    else out ++ ("%" ++ String.ofList (Hex.pair byte))) ""

/-- The URL of `Session::get`. -/
def url (companyUrl path : String) (params : List (String × String)) : String :=
  params.foldl (fun url (key, value) =>
      url ++ (percentEncode key ++ "=" ++ percentEncode value ++ "&"))
    (companyUrl ++ "/" ++ path ++ "?") ++ "minorversion=" ++ minorVersion

/-! ## The encoder -/

/-- The encoder of `jobctl`, byte by byte, is the library's: what is not reserved
stands for itself, and every other byte is written with two digits. -/
theorem toList_percentEncode (value : String) :
    (percentEncode value).toList = Percent.encodeText value := by
  -- the loop writes behind what is there, so the induction is over any `out`
  have hfold : ∀ (bytes : List UInt8) (out : String),
      (bytes.foldl (fun out byte =>
        if keepsByte byte then out.push (Char.ofNat byte.toNat)
        else out ++ ("%" ++ String.ofList (Hex.pair byte))) out).toList =
      out.toList ++ Percent.encode bytes := by
    intro bytes
    induction bytes with
    | nil =>
      intro out
      exact (List.append_nil _).symm
    | cons byte bytes ih =>
      intro out
      have hbyte : (if keepsByte byte then out.push (Char.ofNat byte.toNat)
          else out ++ ("%" ++ String.ofList (Hex.pair byte))).toList =
          out.toList ++ Percent.symbols byte := by
        show (if Percent.unreserved byte then _ else _ : String).toList = _
        unfold Percent.symbols
        split
        · exact String.toList_push _
        · rw [String.toList_append, String.toList_append, String.toList_ofList,
            String.toList_ofList, List.singleton_append]
      rw [List.foldl_cons, ih, hbyte, List.append_assoc]
      rfl
  exact hfold (utf8 value) ""

/-- The two encoders agree. -/
theorem percentEncode_eq (value : String) :
    percentEncode value = JobRunner.percentEncode value := by
  rw [← String.toList_inj, toList_percentEncode, JobRunner.toList_percentEncode]

/-! ## The query -/

/-- The parameters of a request, with the minor version. -/
def sentParams (params : List (String × String)) : List (String × String) :=
  params ++ [("minorversion", minorVersion)]

theorem sentParams_ne_nil (params : List (String × String)) : sentParams params ≠ [] :=
  List.append_ne_nil_of_right_ne_nil _ (List.cons_ne_nil _ _)

/-- The query of the URL. -/
def urlQuery (params : List (String × String)) : List Char :=
  ['&'].intercalate ((sentParams params).map Percent.encodePair)

theorem urlQuery_nil : urlQuery [] = ("minorversion=" ++ minorVersion).toList := by decide +kernel

theorem urlQuery_cons (key value : String) (params : List (String × String)) :
    urlQuery ((key, value) :: params) =
      (percentEncode key ++ "=" ++ percentEncode value ++ "&").toList ++ urlQuery params := by
  have hne : (sentParams params).map Percent.encodePair ≠ [] := by
    simpa using sentParams_ne_nil params
  show ['&'].intercalate (Percent.encodePair (key, value) ::
    (sentParams params).map Percent.encodePair) = _
  rw [List.intercalate_cons_of_ne_nil hne, Percent.encodePair]
  simp only [String.toList_append, toList_percentEncode, List.append_assoc]
  rfl

/-- The loop writes the parameters behind what it has of the URL, and the minor
version comes last. -/
theorem url_eq (companyUrl path : String) (params : List (String × String)) :
    url companyUrl path params =
      companyUrl ++ "/" ++ path ++ "?" ++ String.ofList (urlQuery params) := by
  rw [url]
  generalize companyUrl ++ "/" ++ path ++ "?" = start
  induction params generalizing start with
  | nil =>
    rw [List.foldl_nil, urlQuery_nil, String.ofList_toList, String.append_assoc]
  | cons param params ih =>
    rw [List.foldl_cons, ih, urlQuery_cons, String.ofList_append, String.ofList_toList,
      String.append_assoc]

theorem not_mem_urlQuery {c : Char} (hc : c ∈ ['?', '#']) (params : List (String × String)) :
    c ∉ urlQuery params := by
  have hall : ∀ d ∈ ['?', '#'], d ∈ ['&', '?', '#'] ∧ d ∉ ['&'] := by simp
  intro hmem
  rcases List.mem_intercalate hmem with hsep | ⟨piece, hpiece, hmem⟩
  · exact (hall c hc).2 hsep
  · obtain ⟨pair, -, rfl⟩ := List.mem_map.mp hpiece
    exact Percent.not_mem_encodePair (hall c hc).1 pair hmem

/-- The query of a URL: what stands behind the first `?`, without a fragment. -/
def queryPart (url : String) : Option (List Char) :=
  match (url.toList.takeWhile (· ≠ '#')).dropWhile (· ≠ '?') with
  | [] => none
  | _ :: rest => some rest

/-- Behind a base without `?` and `#` the query starts at the `?` that `url` writes. -/
theorem queryPart_append {base : String} (hbase : ∀ c ∈ base.toList, c ≠ '?' ∧ c ≠ '#')
    {rest : List Char} (hrest : '#' ∉ rest) :
    queryPart (base ++ "?" ++ String.ofList rest) = some rest := by
  have htake : (base ++ "?" ++ String.ofList rest).toList.takeWhile (· ≠ '#') =
      base.toList ++ '?' :: rest := by
    rw [String.toList_append, String.toList_append, String.toList_ofList, String.toList_ofList,
      List.append_assoc, List.singleton_append, List.takeWhile_eq_self_iff]
    intro c hc
    refine decide_eq_true ?_
    rcases List.mem_append.mp hc with hc | hc
    · exact (hbase c hc).2
    · rcases List.mem_cons.mp hc with rfl | hc
      · decide
      · rintro rfl
        exact hrest hc
  have hdrop : (base.toList ++ '?' :: rest).dropWhile (· ≠ '?') = '?' :: rest := by
    rw [List.dropWhile_append_of_pos fun c hc => decide_eq_true (hbase c hc).1]
    simp
  rw [queryPart, htake, hdrop]

/-- The URL that the session asks for a request. -/
def Request.url (session : Session) (req : Request) : String :=
  Jobctl.url session.companyUrl req.path req.params

/-- A request arrives with its parameters. -/
theorem Request.url_eq (session : Session) (req : Request) :
    ∃ query : List Char,
      req.url session = session.companyUrl ++ "/" ++ req.path ++ "?" ++ String.ofList query ∧
      Percent.decodePairs query = some (sentParams req.params) :=
  ⟨urlQuery req.params, Jobctl.url_eq _ _ _, Percent.decodePairs_intercalate (sentParams_ne_nil _)⟩

/-- **The URL carries exactly the parameters.** Whatever keys and values contain, the query
is read back as the parameters and the minor version; it is the query of the URL, unless the
company's URL or the path already has a `?` or a `#`. The encoders of the daemon and of
`jobctl` agree, and are undone. -/
theorem url_carries_params :
    (∀ (companyUrl path : String) (params : List (String × String)), ∃ query : List Char,
      url companyUrl path params = companyUrl ++ "/" ++ path ++ "?" ++ String.ofList query ∧
      '?' ∉ query ∧ '#' ∉ query ∧
      Percent.decodePairs query = some (params ++ [("minorversion", "75")]) ∧
      ((∀ c ∈ (companyUrl ++ "/" ++ path).toList, c ≠ '?' ∧ c ≠ '#') →
        queryPart (url companyUrl path params) = some query)) ∧
    ∀ value : String, percentEncode value = JobRunner.percentEncode value ∧
      Percent.decodeText (percentEncode value).toList = some value := by
  refine ⟨fun companyUrl path params => ⟨urlQuery params, url_eq companyUrl path params,
    not_mem_urlQuery (by decide) params, not_mem_urlQuery (by decide) params,
    Percent.decodePairs_intercalate (sentParams_ne_nil params), fun hbase => ?_⟩,
    fun value => ⟨percentEncode_eq value, ?_⟩⟩
  · rw [url_eq]
    exact queryPart_append hbase (not_mem_urlQuery (by decide) params)
  · rw [toList_percentEncode, Percent.decodeText_encodeText]

end JobRunner.Jobctl
