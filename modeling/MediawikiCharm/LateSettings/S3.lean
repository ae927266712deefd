/-
The S3 settings (`_get_s3_settings` of `mediawiki/_settings.py`).

The settings are laid out once, with the values in place: spaces are taken from the lines of a
value and none put back.
-/
import MediawikiCharm.PhpLayout.Margins

namespace MediawikiCharm
namespace LateSettings

set_option maxRecDepth 2000

open PyText Lines Textwrap Php PhpLayout

/-- `S3ConnectionInfo`, as far as the settings show it. -/
structure S3ConnectionInfo where
  endpoint : PyStr
  bucket : PyStr
  accessKey : PyStr
  secretKey : PyStr
  region : Option PyStr := none
  s3UriStyle : Option PyStr := none

/-- `str.lower()` of an ASCII character; no other character becomes one of `path`. -/
def lowerAscii (c : PyChar) : PyChar :=
  if h : 'A'.toNat ≤ c.val ∧ c.val ≤ 'Z'.toNat then
    ⟨c.val + 32, by
      have hle : c.val ≤ 90 := h.2
      omega⟩
  else c

namespace S3ConnectionInfo

variable (s3Data : S3ConnectionInfo)

/-- `s3_data.region or "eu-west-1"` -/
def wgAwsRegion : PyStr :=
  match s3Data.region with
  | none | some [] => lit "eu-west-1"
  | some region => region

/-- `s3_data.s3_uri_style and s3_data.s3_uri_style.lower() == "path"` -/
def isPathStyle : Bool := s3Data.s3UriStyle.any fun style => style.map lowerAscii = lit "path"

/-- The settings before they are laid out. -/
def settingsParts : List (PyStr × PyStr) := [
  (lit "
            wfLoadExtension( 'AWS' );

            $wgAWSCredentials = [
                'key' => ", s3Data.accessKey),
  (lit ",\n                'secret' => ", s3Data.secretKey),
  (lit ",
                'token' => false
            ];
            $wgAWSRegion = ", s3Data.wgAwsRegion),
  (lit ";\n            $wgAWSBucketName = ", s3Data.bucket),
  (lit ";\n            $wgFileBackends['s3']['endpoint'] = ", s3Data.endpoint)]

def settingsRest : PyStr := lit ";\n            "

/-- What is put behind the settings. -/
def uriStyle : PyStr :=
  (if s3Data.isPathStyle then lit "$wgFileBackends['s3']['use_path_style_endpoint'] = true;\n"
    else []) ++ lit "\n"

/-- `_get_s3_settings`, with the relation. -/
def getS3Settings : PyStr :=
  Textwrap.dedent (render s3Data.settingsParts settingsRest) ++ s3Data.uriStyle

/-- The tokens of the settings with the values of the relation. -/
def settingTokens : List Token :=
  fill (scanned [
    (lit "wfLoadExtension( 'AWS' ); $wgAWSCredentials = [ 'key' => ", s3Data.accessKey),
    (lit ", 'secret' => ", s3Data.secretKey),
    (lit ", 'token' => false ]; $wgAWSRegion = ", s3Data.wgAwsRegion),
    (lit "; $wgAWSBucketName = ", s3Data.bucket),
    (lit "; $wgFileBackends['s3']['endpoint'] = ", s3Data.endpoint)])
  (scan .code (if s3Data.isPathStyle then
    lit ";$wgFileBackends['s3']['use_path_style_endpoint'] = true;" else lit ";")).2

lemma isText_settings : IsText (render s3Data.settingsParts settingsRest)
    (scanned s3Data.settingsParts) (scan .code settingsRest).2 := by
  refine ⟨_, _, rfl, ⟨?_, by decide⟩, rfl, rfl⟩
  simp only [settingsParts, List.forall_mem_cons, List.not_mem_nil, false_implies, implies_true,
    and_true]
  repeat rw [lit_ofList]
  decide

lemma hasHead_settings : HasHead 12 (render s3Data.settingsParts settingsRest) :=
  ⟨ofChar 'w', _, by decide, rfl⟩

/-- The values of the settings. -/
def settingsValues : List PyStr :=
  [s3Data.accessKey, s3Data.secretKey, s3Data.wgAwsRegion, s3Data.bucket, s3Data.endpoint]

lemma le_depth_settings {n : ℕ} : n ≤ depth (render s3Data.settingsParts settingsRest) ↔
    n ≤ 12 ∧ ∀ s ∈ s3Data.settingsValues, Indents newlines n s := by
  refine le_depth_render s3Data.hasHead_settings ?_ (by decide)
  simp only [settingsParts, List.forall_mem_cons, List.not_mem_nil, false_implies, implies_true,
    and_true]
  repeat rw [lit_ofList]
  decide

/-- What becomes of a value. -/
def relaySettings (v : PyStr) : PyStr :=
  relay newlines (.dedent (depth (render s3Data.settingsParts settingsRest))) v

lemma isText_getS3Settings : IsText s3Data.getS3Settings [
    ((scan .code (lit "wfLoadExtension( 'AWS' ); $wgAWSCredentials = [ 'key' => ")).2,
      s3Data.relaySettings s3Data.accessKey),
    ((scan .code (lit ", 'secret' => ")).2, s3Data.relaySettings s3Data.secretKey),
    ((scan .code (lit ", 'token' => false ]; $wgAWSRegion = ")).2,
      s3Data.relaySettings s3Data.wgAwsRegion),
    ((scan .code (lit "; $wgAWSBucketName = ")).2, s3Data.relaySettings s3Data.bucket),
    ((scan .code (lit "; $wgFileBackends['s3']['endpoint'] = ")).2,
      s3Data.relaySettings s3Data.endpoint)]
    (scan .code (if s3Data.isPathStyle then
      lit ";$wgFileBackends['s3']['use_path_style_endpoint'] = true;" else lit ";")).2 := by
  have hstyle : IsCode newlines s3Data.uriStyle := by
    rw [uriStyle, lit_ofList, lit_ofList]
    cases s3Data.isPathStyle with
    | true => decide
    | false => decide
  have hsettings := (s3Data.isText_settings.dedent s3Data.hasHead_settings).append_code hstyle
  -- the layout of the code does not show in its tokens
  have hcode : (scan .code (lit "wfLoadExtension( 'AWS' ); $wgAWSCredentials = [ 'key' => ")).2 =
        (scan .code (lit "
            wfLoadExtension( 'AWS' );

            $wgAWSCredentials = [
                'key' => ")).2 ∧
      (scan .code (lit ", 'secret' => ")).2 =
        (scan .code (lit ",\n                'secret' => ")).2 ∧
      (scan .code (lit ", 'token' => false ]; $wgAWSRegion = ")).2 = (scan .code (lit ",
                'token' => false
            ];
            $wgAWSRegion = ")).2 ∧
      (scan .code (lit "; $wgAWSBucketName = ")).2 =
        (scan .code (lit ";\n            $wgAWSBucketName = ")).2 ∧
      (scan .code (lit "; $wgFileBackends['s3']['endpoint'] = ")).2 =
        (scan .code (lit ";\n            $wgFileBackends['s3']['endpoint'] = ")).2 := by
    repeat rw [lit_ofList]
    decide
  have hrest : (scan .code (if s3Data.isPathStyle then
        lit ";$wgFileBackends['s3']['use_path_style_endpoint'] = true;" else lit ";")).2 =
      (scan .code settingsRest).2 ++ (scan .code s3Data.uriStyle).2 := by
    rw [uriStyle, settingsRest]
    repeat rw [lit_ofList]
    cases s3Data.isPathStyle with
    | true => decide
    | false => decide
  obtain ⟨hkey, hsecret, hregion, hbucket, hendpoint⟩ := hcode
  rw [hkey, hsecret, hregion, hbucket, hendpoint, hrest]
  exact hsettings

/-- The settings have the values of the relation exactly if no value has a line break, or all
lines behind line breaks have no space in common. -/
theorem tokens_getS3Settings_iff : tokens s3Data.getS3Settings = some s3Data.settingTokens ↔
    Aligned 0 s3Data.settingsValues := by
  rw [s3Data.isText_getS3Settings.tokens_eq, Option.some_inj, settingTokens]
  refine Iff.trans (fill_inj ?_) ?_
  · simp only [scanned, List.map_cons, List.map_nil]
  rw [← aligned_iff (by omega) fun _ => s3Data.le_depth_settings]
  simp only [scanned, List.map_cons, List.map_nil, List.cons.injEq, Prod.mk.injEq, true_and,
    and_true, settingsValues, List.forall_mem_cons, List.not_mem_nil, false_implies, implies_true]
  rfl

end S3ConnectionInfo

end LateSettings
end MediawikiCharm
