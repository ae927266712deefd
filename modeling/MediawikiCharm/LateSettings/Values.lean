/-
The values of relations in the settings (`mediawiki/_settings.py`).

The values are escaped and put between quotes, and the text around them is laid out afterwards.
So a value of one line is read as it is.  Of a value with several lines it depends on the spaces in
front of its lines, and on the other values of the same settings, what is read.
-/
import MediawikiCharm.LateSettings.Database
import MediawikiCharm.LateSettings.S3
import MediawikiCharm.LateSettings.AuthSettings
import MediawikiCharm.LateSettings.Smtp

namespace MediawikiCharm
namespace LateSettings

open PyText Lines Textwrap Php PhpLayout Smtp

/-- The data of the relations that the settings show. -/
structure RelationData where
  dbData : DatabaseConfig
  auth : AuthInputs
  smtpData : SmtpRelationData
  /-- The relay is reached through the tunnel. -/
  smtpUsesTunnel : Bool
  s3Data : S3ConnectionInfo

/-- The settings that are rendered are read with the values of the relations at their keys. -/
def PreservesValues (i : RelationData) : Prop :=
  tokens i.dbData.getDatabaseSettings = some i.dbData.settingTokens ∧
    tokens i.auth.getAuthSettings = some i.auth.settingTokens ∧
    tokens (lit (smtpText i.smtpUsesTunnel i.smtpData)) =
      some (settingTokens i.smtpUsesTunnel i.smtpData) ∧
    tokens i.s3Data.getS3Settings = some i.s3Data.settingTokens

/-- The values of the relations are read exactly if these conditions hold.  No line ends in the
name of the database.  The other values of the database, those of the OAuth provider and those of
S3 each have no line breaks at all, or lines that have four, eight and no spaces in common.  No
value that stands in an entry of the SMTP settings has one of the line breaks of
`str.splitlines`. -/
theorem preservesValues_iff (i : RelationData) : PreservesValues i ↔
    (Free isNewline i.dbData.database ∧
      Aligned 4 [i.dbData.host, i.dbData.username, i.dbData.password]) ∧
    (∀ entry, i.auth.oauthEntry = some entry → Aligned 8 entry.values) ∧
    (((i.smtpUsesTunnel = true → i.smtpData.transportSecurity ≠ .none) →
        Free isLineBreak (lit i.smtpData.host)) ∧
      (∀ user ∈ i.smtpData.user, Free isLineBreak (lit user)) ∧
      ∀ password ∈ i.smtpData.password, Free isLineBreak (lit password)) ∧
    Aligned 0 i.s3Data.settingsValues :=
  and_congr i.dbData.tokens_getDatabaseSettings_iff
    (and_congr i.auth.tokens_getAuthSettings_iff
      (and_congr tokens_smtpText_iff i.s3Data.tokens_getS3Settings_iff))

/-- A database whose password has two lines. -/
def twoLines : DatabaseConfig where
  endpoints := [⟨lit "mysql", 3306⟩]
  database := lit "mediawiki"
  username := lit "wiki"
  password := lit "a\nb"
  ready := by decide

/-- Spaces are put in front of the second line of the password. -/
theorem not_preservesValues_twoLines : ¬ PreservesValues {
    dbData := twoLines
    auth := {}
    smtpData := { host := "smtp", port := 25 }
    smtpUsesTunnel := false
    s3Data := {
      endpoint := lit "https://s3", bucket := lit "wiki", accessKey := lit "key",
      secretKey := lit "secret" } } := by
  rintro ⟨hdatabase, -⟩
  have hmem : twoLines.password ∈ [twoLines.host, twoLines.username, twoLines.password] := by simp
  have hbreak : ofChar '\n' ∈ twoLines.password := by decide
  have hspaces : ¬ Indents newlines 4 twoLines.password := by
    show ¬ Indents newlines 4 (lit "a\nb")
    rw [lit_ofList]
    decide
  rcases (twoLines.tokens_getDatabaseSettings_iff.1 hdatabase).2 with h | ⟨h, -⟩
  · exact absurd (h _ hmem _ hbreak) (by decide)
  · exact hspaces (h _ hmem).1

end LateSettings
end MediawikiCharm
