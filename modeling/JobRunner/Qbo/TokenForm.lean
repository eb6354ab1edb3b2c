import JobRunner.Lib.Percent

/-!
# The form of a token refresh (`qbo`)

`refresh` posts a form with two fields to Intuit; the refresh token is percent-encoded.

- `percentEncode`: the encoder of the daemon.
- `tokenForm`: the body of the request.
- `decodePairs_tokenForm`: it holds the token, and nothing that the token could add.
-/

open Text

namespace JobRunner

/-- The bytes that `percent_encode` keeps. -/
def keepsByte (byte : UInt8) : Bool :=
  let n := byte.toNat
  -- `A`..`Z`, `a`..`z`, `0`..`9`, `-`, `.`, `_` and `~`
  (65 ≤ n && n ≤ 90) || (97 ≤ n && n ≤ 122) || (48 ≤ n && n ≤ 57) || n = 45 || n = 46 ||
    n = 95 || n = 126

/-- `percent_encode` of the daemon. -/
def percentEncode (value : String) : String :=
  String.join ((utf8 value).map fun byte =>
    if keepsByte byte then String.singleton (Char.ofNat byte.toNat)
    else "%" ++ String.ofList (Hex.pair byte))

example : percentEncode "a+b/c=" = "a%2Bb%2Fc%3D" := by decide +kernel

/-- The body of the request of `refresh`. -/
def tokenForm (refreshToken : String) : String :=
  "grant_type=refresh_token&refresh_token=" ++ percentEncode refreshToken

theorem toList_percentEncode (value : String) :
    (percentEncode value).toList = Percent.encodeText value := by
  rw [percentEncode, String.toList_join, List.flatMap_map]
  refine List.flatMap_congr fun byte _ => ?_
  show (if Percent.unreserved byte then _ else _ : String).toList = Percent.symbols byte
  unfold Percent.symbols
  split
  · exact String.toList_singleton _
  · rw [String.toList_append, String.toList_ofList, String.toList_ofList, List.singleton_append]

/-- **The token is sent as it is.** -/
theorem decodePairs_tokenForm (refreshToken : String) :
    Percent.decodePairs (tokenForm refreshToken).toList =
      some [("grant_type", "refresh_token"), ("refresh_token", refreshToken)] := by
  have hform : (tokenForm refreshToken).toList = ['&'].intercalate
      ([("grant_type", "refresh_token"), ("refresh_token", refreshToken)].map
        Percent.encodePair) := by
    have hfixed : "grant_type=refresh_token&refresh_token=".toList =
        Percent.encodePair ("grant_type", "refresh_token") ++ ['&'] ++
          (Percent.encodeText "refresh_token" ++ ['=']) := by decide +kernel
    show ("grant_type=refresh_token&refresh_token=" ++ percentEncode refreshToken).toList = _
    rw [String.toList_append, toList_percentEncode, hfixed, List.map_cons, List.map_cons,
      List.map_nil, List.intercalate_cons_cons, List.intercalate_singleton]
    rw [Percent.encodePair, Percent.encodePair, List.append_assoc, List.append_assoc]
    rfl
  rw [hform, Percent.decodePairs_intercalate (List.cons_ne_nil _ _)]

end JobRunner
