import JobRunner.Lib.Decimal
import JobRunner.Lib.Split

/-!
# The HTTP client's text (`jobctl`, `api.rs`)

`jobctl ask` speaks HTTP/1.1 by hand: it writes a request with `Connection: close`, reads the
response to its end and cuts it at the first blank line.

- `parseResponse`: status code and body.
- `ResponseHead`, `render`: a response as a server writes it.
- `parseResponse_render`: whatever the body holds, it is read back.
- `parseJobId`: the path of `GET /jobs/{id}`, as the daemon reads it.
- `parseJobId_eq_some_iff`: which paths name a job; the one the client writes names its own.
-/

open Text Decimal

namespace JobRunner.Jobctl

/-! ## Responses -/

/-- `str::parse::<u16>`. -/
def parseU16 (s : String) : Option Nat := (parseU64 s).filter (· < 65536)

/-- A blank line. -/
def blankLine : List Char := ['\r', '\n', '\r', '\n']

/-- `parse_response`. -/
def parseResponse (raw : String) : Except String (Nat × String) :=
  match Split.splitOnce blankLine raw.toList with
  | none => .error "truncated HTTP response"
  | some (head, body) =>
    match (head.splitOn ' ')[1]?.bind fun code => parseU16 (String.ofList code) with
    | none => .error ("bad status line: " ++ String.ofList (head.take 40))
    | some status => .ok (status, String.ofList body)

/-- The head of a response: its status code, and what stands behind it. -/
structure ResponseHead where
  code : Nat
  reason : String
  headers : List String
  codeFits : code < 65536
  /-- A reason phrase ends with its line. -/
  reasonLine : '\r' ∉ reason.toList
  /-- A header line is not empty. -/
  headerLine : ∀ h ∈ headers, h ≠ "" ∧ '\r' ∉ h.toList

namespace ResponseHead

/-- `HTTP/1.1`. -/
def version : List Char := ['H', 'T', 'T', 'P', '/', '1', '.', '1']

/-- The status line. -/
def statusLine (r : ResponseHead) : List Char :=
  version ++ ' ' :: (Nat.toDigits 10 r.code ++ ' ' :: r.reason.toList)

/-- The lines of the head. -/
def lines (r : ResponseHead) : List (List Char) :=
  r.statusLine :: r.headers.map String.toList

/-- The response as it is written. -/
def render (r : ResponseHead) (body : String) : String :=
  String.ofList (['\r', '\n'].intercalate r.lines ++ blankLine ++ body.toList)

/-- A character that is no digit does not stand in a number. -/
theorem notMem_code (r : ResponseHead) {c : Char} (hc : c.isDigit = false) :
    c ∉ Nat.toDigits 10 r.code := by
  intro h
  rw [Nat.isDigit_of_mem_toDigits (by omega) (by omega) h] at hc
  cases hc

theorem statusLine_filled (r : ResponseHead) : r.statusLine ≠ [] ∧ '\r' ∉ r.statusLine := by
  constructor
  · simp [statusLine]
  · simp [statusLine, version, r.notMem_code, r.reasonLine]

theorem lines_filled (r : ResponseHead) : ∀ l ∈ r.lines, l ≠ [] ∧ '\r' ∉ l := by
  intro l hl
  rcases List.mem_cons.mp hl with heq | hl
  · rw [heq]
    exact r.statusLine_filled
  · obtain ⟨h, hh, rfl⟩ := List.mem_map.mp hl
    obtain ⟨hne, hline⟩ := r.headerLine h hh
    exact ⟨fun hnil => hne (by rwa [String.toList_eq_nil_iff] at hnil), hline⟩

end ResponseHead

theorem parseU16_toDigits {n : Nat} (h : n < 65536) :
    parseU16 (String.ofList (Nat.toDigits 10 n)) = some n := by
  obtain ⟨c, cs, hcs⟩ := List.exists_cons_of_ne_nil (Nat.toDigits_ne_nil (n := n) (b := 10))
  have hdigit : c.isDigit = true :=
    Nat.isDigit_of_mem_toDigits (by omega) (by omega) (hcs ▸ List.mem_cons_self ..)
  have hplus : c ≠ '+' := by
    rintro rfl
    cases hdigit
  have hvalue : digits? (c :: cs) = some n := hcs ▸ digits?_toDigits n
  have hu64 : parseU64 (String.ofList (Nat.toDigits 10 n)) = some n := by
    unfold parseU64
    rw [String.toList_ofList, hcs]
    split
    next heq =>
      cases heq
      exact absurd rfl hplus
    · rw [hvalue, Option.filter_some, if_pos (by simp; omega)]
  rw [parseU16, hu64, Option.filter_some, if_pos (by simpa using h)]

/-- The second word of the status line is the code. -/
theorem statusLine_word (r : ResponseHead) (rest : List Char) :
    ((r.statusLine ++ rest).splitOn ' ')[1]? = some (Nat.toDigits 10 r.code) := by
  have hversion : ' ' ∉ ResponseHead.version := by decide
  have hcode : ' ' ∉ Nat.toDigits 10 r.code := r.notMem_code rfl
  rw [ResponseHead.statusLine, List.append_assoc, List.cons_append,
    List.splitOn_append_cons_self_of_not_mem hversion, List.append_assoc, List.cons_append,
    List.splitOn_append_cons_self_of_not_mem hcode]
  rfl

/-- **Responses are read back.** For every status code, reason, headers and body,
blank lines in the body included: the head ends at the first blank line, and no line
of a head is blank. -/
theorem parseResponse_render (r : ResponseHead) (body : String) :
    parseResponse (r.render body) = .ok (r.code, body) := by
  have hsplit : Split.splitOnce blankLine
      (['\r', '\n'].intercalate r.lines ++ blankLine ++ body.toList) =
        some (['\r', '\n'].intercalate r.lines, body.toList) :=
    Split.splitOnce_lines (by decide) (List.cons_ne_nil _ _) r.lines_filled body.toList
  have hhead : ∃ rest, ['\r', '\n'].intercalate r.lines = r.statusLine ++ rest := by
    rw [ResponseHead.lines]
    cases r.headers.map String.toList with
    | nil => exact ⟨[], by simp⟩
    | cons l ls => exact ⟨_, by rw [List.intercalate_cons_cons, List.append_assoc]⟩
  obtain ⟨rest, hrest⟩ := hhead
  unfold parseResponse ResponseHead.render
  rw [String.toList_ofList, hsplit]
  simp only [hrest, statusLine_word, Option.bind_some, parseU16_toDigits r.codeFits,
    String.ofList_toList]

/-- The head of an answer of the daemon. -/
def createdHead : ResponseHead where
  code := 201
  reason := "Created"
  headers := ["content-type: application/json", "connection: close", "content-length: 18"]
  codeFits := by decide
  reasonLine := by decide
  headerLine := by decide

/-- The first blank line ends the head, the second belongs to the body. -/
theorem createdHead_read :
    createdHead.render "\x7b\"reply\":\r\n\r\n\"hi\"\x7d" =
      "HTTP/1.1 201 Created\r\ncontent-type: application/json\r\nconnection: close\r\n" ++
        "content-length: 18\r\n\r\n\x7b\"reply\":\r\n\r\n\"hi\"\x7d" ∧
    parseResponse (createdHead.render "\x7b\"reply\":\r\n\r\n\"hi\"\x7d") =
      .ok (201, "\x7b\"reply\":\r\n\r\n\"hi\"\x7d") :=
  ⟨by decide +kernel, parseResponse_render createdHead _⟩

/-! ## Numerals -/

theorem digitChar_of_isDigit {c : Char} (h : c.isDigit = true) : ∃ d < 10, c = Nat.digitChar d := by
  simp only [Char.isDigit, Bool.and_eq_true, decide_eq_true_eq] at h
  have hlow : 48 ≤ c.toNat := h.1
  have hhigh : c.toNat ≤ 57 := h.2
  refine ⟨c.toNat - 48, by omega, ?_⟩
  have hval : c.toNat = (Nat.digitChar (c.toNat - 48)).toNat := by
    rw [Nat.toNat_digitChar_of_lt_ten (by omega)]
    omega
  exact Char.toNat_inj.mp hval

/-- A text of digits is a numeral after some zeros; one of value 0 is all zeros. So
the texts of a number differ in their zeros only. -/
theorem eq_zeros_append {cs : List Char} (h : ∀ c ∈ cs, c.isDigit = true) :
    ∃ k, cs = List.replicate k '0' ++
      if Nat.ofDigitChars 10 cs 0 = 0 then [] else Nat.toDigits 10 (Nat.ofDigitChars 10 cs 0) := by
  induction cs using List.reverseRecOn with
  | nil => exact ⟨0, rfl⟩
  | append_singleton cs c ih =>
    obtain ⟨k, hk⟩ := ih fun d hd => h d (List.mem_append_left _ hd)
    obtain ⟨d, hd, rfl⟩ := digitChar_of_isDigit (h c (List.mem_append_right _ (by simp)))
    have hvalue : Nat.ofDigitChars 10 (cs ++ [Nat.digitChar d]) 0 =
        10 * Nat.ofDigitChars 10 cs 0 + d := by
      rw [Nat.ofDigitChars_append, Nat.ofDigitChars_cons_digitChar_of_lt_ten hd,
        Nat.ofDigitChars_nil]
    rw [hvalue]
    generalize Nat.ofDigitChars 10 cs 0 = v at hk
    by_cases hv : v = 0
    · -- so far there were only zeros
      subst hv
      rw [if_pos rfl, List.append_nil] at hk
      subst hk
      by_cases hzero : d = 0
      · subst hzero
        exact ⟨k + 1, by simp [List.replicate_succ']⟩
      · refine ⟨k, ?_⟩
        rw [if_neg (by omega), Nat.mul_zero, Nat.zero_add, Nat.toDigits_of_lt_base hd]
    · rw [if_neg hv] at hk
      refine ⟨k, ?_⟩
      rw [if_neg (by omega), ← Nat.toDigits_append_toDigits (by omega) (by omega) hd,
        Nat.toDigits_of_lt_base hd, ← List.append_assoc, ← hk]

theorem digits?_eq_some_iff {cs : List Char} {n : Nat} (hn : 0 < n) :
    digits? cs = some n ↔ ∃ k, cs = List.replicate k '0' ++ Nat.toDigits 10 n := by
  unfold digits?
  constructor
  · intro h
    split at h
    next hcs =>
      rw [Option.some.injEq] at h
      obtain ⟨k, hk⟩ := eq_zeros_append (List.all_eq_true.mp hcs.2)
      rw [h, if_neg (by omega)] at hk
      exact ⟨k, hk⟩
    · cases h
  · rintro ⟨k, rfl⟩
    rw [if_pos, Nat.ofDigitChars_append, Nat.ofDigitChars_replicate_zero, Nat.mul_zero,
      Nat.ofDigitChars_ten_toDigits]
    refine ⟨List.append_ne_nil_of_right_ne_nil _ Nat.toDigits_ne_nil, ?_⟩
    rw [List.all_eq_true]
    intro c hc
    rcases List.mem_append.mp hc with hc | hc
    · rw [List.eq_of_mem_replicate hc]
      rfl
    · exact Nat.isDigit_of_mem_toDigits (by omega) (by omega) hc

/-- **What `parse::<i64>` takes for a positive number.** -/
theorem parseI64_eq_some_iff {s : String} {n : Int} (hn : 0 < n) :
    parseI64 s = some n ↔ Machine.InRange n ∧ ∃ sign k, (sign = [] ∨ sign = ['+']) ∧
      s.toList = sign ++ List.replicate k '0' ++ Nat.toDigits 10 n.natAbs := by
  have habs : ((n.natAbs : Nat) : Int) = n := by omega
  have hpos : 0 < n.natAbs := by omega
  -- a text of digits, with the range checked
  have hdigits : ∀ cs, ((digits? cs).bind fun m => checked m) = some n ↔
      Machine.InRange n ∧ ∃ k, cs = List.replicate k '0' ++ Nat.toDigits 10 n.natAbs := by
    intro cs
    rw [Option.bind_eq_some_iff]
    constructor
    · rintro ⟨m, hm, hcheck⟩
      obtain ⟨rfl, hrange⟩ := checked_eq_some hcheck
      exact ⟨hrange, (digits?_eq_some_iff hpos).mp (by simpa using hm)⟩
    · rintro ⟨hrange, hcs⟩
      refine ⟨n.natAbs, (digits?_eq_some_iff hpos).mpr hcs, ?_⟩
      rw [habs]
      exact checked_of_inRange hrange
  have hhead : ∀ k, ∃ c cs, List.replicate k '0' ++ Nat.toDigits 10 n.natAbs = c :: cs ∧
      c.isDigit = true := by
    intro k
    obtain ⟨c, cs, hcs⟩ := List.exists_cons_of_ne_nil
      (List.append_ne_nil_of_right_ne_nil (List.replicate k '0')
        (Nat.toDigits_ne_nil (n := n.natAbs) (b := 10)))
    refine ⟨c, cs, hcs, ?_⟩
    have hmem : c ∈ List.replicate k '0' ++ Nat.toDigits 10 n.natAbs := hcs ▸ List.mem_cons_self ..
    rcases List.mem_append.mp hmem with hmem | hmem
    · rw [List.eq_of_mem_replicate hmem]
      rfl
    · exact isDigit_of_mem_natAbs hmem
  unfold parseI64
  split
  next cs hs =>
    -- a minus, and what follows is no positive number
    refine iff_of_false ?_ ?_
    · intro h
      obtain ⟨m, -, hcheck⟩ := Option.bind_eq_some_iff.mp h
      obtain ⟨hm, -⟩ := checked_eq_some hcheck
      omega
    · rintro ⟨-, sign, k, hsign, heq⟩
      obtain ⟨c, cs', hcs, hc⟩ := hhead k
      rcases hsign with rfl | rfl
      · rw [hs, List.nil_append, hcs] at heq
        cases heq
        cases hc
      · rw [hs, List.append_assoc, List.singleton_append] at heq
        cases heq
  next cs hs =>
    rw [hdigits cs, hs]
    refine and_congr_right fun _ => ⟨?_, ?_⟩
    · rintro ⟨k, rfl⟩
      exact ⟨['+'], k, .inr rfl, by simp⟩
    · rintro ⟨sign, k, hsign, heq⟩
      obtain ⟨c, cs', hcs, hc⟩ := hhead k
      rcases hsign with rfl | rfl
      · rw [List.nil_append, hcs] at heq
        cases heq
        cases hc
      · rw [List.append_assoc, List.singleton_append, List.cons.injEq] at heq
        exact ⟨k, heq.2⟩
  next hminus hplus =>
    rw [hdigits s.toList]
    refine and_congr_right fun _ => ⟨?_, ?_⟩
    · rintro ⟨k, hk⟩
      exact ⟨[], k, .inl rfl, by rw [hk, List.nil_append]⟩
    · rintro ⟨sign, k, hsign, heq⟩
      rcases hsign with rfl | rfl
      · exact ⟨k, by rw [heq, List.nil_append]⟩
      · rw [List.append_assoc, List.singleton_append] at heq
        exact absurd heq (hplus _)

/-! ## The path of a job -/

/-- `parse_job_id`. -/
def parseJobId (path : String) : Option Int :=
  ((stripPrefix "/jobs/" path).bind parseI64).filter (0 < ·)

/-- The path of `Api::job`. -/
def jobPath (id : Int) : String := "/jobs/" ++ toString id

/-- The path a client writes is read as the id it names, if that is one. The
commands go by this when they follow their job. -/
theorem parseJobId_jobPath {id : Int} (hpos : 0 < id) (hrange : Machine.InRange id) :
    parseJobId (jobPath id) = some id := by
  rw [parseJobId, jobPath, stripPrefix_append, Option.bind_some, parseI64_toString_eq,
    checked_of_inRange hrange, Option.filter_some, if_pos (by simpa using hpos)]

/-- **Which paths name a job.** `/jobs/`, a plus or none, zeros, and the id as it is printed. -/
theorem parseJobId_eq_some_iff {path : String} {id : Int} :
    parseJobId path = some id ↔ 0 < id ∧ Machine.InRange id ∧
      ∃ sign k, (sign = "" ∨ sign = "+") ∧
        path = "/jobs/" ++ sign ++ String.ofList (List.replicate k '0') ++ toString id := by
  have hprint : ∀ h : 0 < id, (toString id).toList = Nat.toDigits 10 id.natAbs := by
    intro h
    rw [toList_toString, if_neg (by omega), List.nil_append]
  rw [parseJobId, Option.filter_eq_some_iff, Option.bind_eq_some_iff]
  constructor
  · rintro ⟨⟨raw, hraw, hparse⟩, hpos⟩
    have hpos : 0 < id := by simpa using hpos
    obtain ⟨hrange, sign, k, hsign, heq⟩ := (parseI64_eq_some_iff hpos).mp hparse
    refine ⟨hpos, hrange, String.ofList sign, k, ?_, ?_⟩
    · rcases hsign with rfl | rfl
      · exact .inl rfl
      · exact .inr rfl
    · rw [stripPrefix_eq_some_iff.mp hraw, ← String.toList_inj]
      simp only [String.toList_append, String.toList_ofList, heq, hprint hpos, List.append_assoc]
  · rintro ⟨hpos, hrange, sign, k, hsign, rfl⟩
    refine ⟨⟨sign ++ String.ofList (List.replicate k '0') ++ toString id, ?_, ?_⟩,
      by simpa using hpos⟩
    · exact stripPrefix_eq_some_iff.mpr (by simp only [String.append_assoc])
    · refine (parseI64_eq_some_iff hpos).mpr ⟨hrange, sign.toList, k, ?_, ?_⟩
      · rcases hsign with rfl | rfl
        · exact .inl rfl
        · exact .inr rfl
      · simp only [String.toList_append, String.toList_ofList, hprint hpos]

end JobRunner.Jobctl
