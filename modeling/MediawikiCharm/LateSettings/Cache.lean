/-
The cache settings (`_get_cache_settings` of `mediawiki/_settings.py`).

The settings are laid out once, with the values of the Valkey relation in place.  Each of the values
stands in them twice: once for the object cache and once for the job queue.
-/
import MediawikiCharm.PhpLayout.Margins
import MediawikiCharm.Records

namespace MediawikiCharm

set_option maxRecDepth 2000

open PyText Lines Textwrap Php PhpLayout

namespace LateSettings

/-- The settings without a connection. -/
def noCacheSettings : PyStr :=
  Textwrap.dedent (lit "
                $wgMainCacheType = CACHE_NONE;
                $wgSessionCacheType = CACHE_DB;
                ") ++ lit "\n"

/-- The code of the settings without a connection. -/
def noCacheCode : PyStr := lit "$wgMainCacheType = CACHE_NONE; $wgSessionCacheType = CACHE_DB;"

lemma scan_noCacheSettings : scan .code noCacheSettings = (.code, (scan .code noCacheCode).2) := by
  rw [noCacheSettings, noCacheCode]
  repeat rw [lit_ofList]
  decide

end LateSettings

namespace ValkeyConnectionInfo

variable (connection : ValkeyConnectionInfo)

/-- `endpoint` -/
def endpoint : PyStr := connection.host ++ lit ":" ++ lit (ToString.toString connection.port)

/-- `server` -/
def server : PyStr :=
  if connection.tls then lit "tls://" ++ connection.endpoint else connection.endpoint

/-- The settings before they are laid out. -/
def settingsParts : List (PyStr × PyStr) := [
  (lit "
            $wgObjectCaches['redis'] = [
                'class'                => 'RedisBagOStuff',
                'servers'              => [ ", connection.server),
  (lit " ],\n                'password'             => [ ", connection.username),
  (lit ", ", connection.password),
  (lit " ],
                'persistent'            => true
            ];

            $wgMainCacheType = 'redis';
            $wgSessionCacheType = 'redis';

            $wgJobTypeConf['default'] = [
                'class'          => 'JobQueueRedis',
                'redisServer'    => ", connection.server),
  (lit ",\n                'redisConfig'    => [ 'password' => [ ", connection.username),
  (lit ", ", connection.password)]

def settingsRest : PyStr := lit " ] ],
                'daemonized'     => true
            ];

            $wgJobRunRate = 0;
            "

/-- `_get_cache_settings`, with a connection. -/
def getCacheSettings : PyStr :=
  Textwrap.dedent (render connection.settingsParts settingsRest) ++ lit "\n"

/-- The code of the settings, with the values of the connection. -/
def codeParts : List (PyStr × PyStr) := [
  (lit "$wgObjectCaches['redis'] = [ 'class' => 'RedisBagOStuff', 'servers' => [ ",
    connection.server),
  (lit " ], 'password' => [ ", connection.username),
  (lit ", ", connection.password),
  (lit " ], 'persistent' => true ]; $wgMainCacheType = 'redis'; $wgSessionCacheType = 'redis';
    $wgJobTypeConf['default'] = [ 'class' => 'JobQueueRedis', 'redisServer' => ", connection.server),
  (lit ", 'redisConfig' => [ 'password' => [ ", connection.username),
  (lit ", ", connection.password)]

def codeRest : PyStr := lit " ] ], 'daemonized' => true ]; $wgJobRunRate = 0;"

/-- The tokens of the settings with the values of the connection. -/
def settingTokens : List Token := fill (scanned connection.codeParts) (scan .code codeRest).2

lemma isText_settings : IsText (render connection.settingsParts settingsRest)
    (scanned connection.settingsParts) (scan .code settingsRest).2 := by
  refine ⟨_, _, rfl, ⟨?_, ?_⟩, rfl, rfl⟩
  · simp only [settingsParts, List.forall_mem_cons, List.not_mem_nil, false_implies, implies_true,
      and_true]
    repeat rw [lit_ofList]
    decide
  · rw [settingsRest, lit_ofList]
    decide

lemma hasHead_settings : HasHead 12 (render connection.settingsParts settingsRest) :=
  ⟨ofChar '$', _, by decide, rfl⟩

/-- The values of the settings. -/
def settingsValues : List PyStr := [connection.server, connection.username, connection.password]

lemma le_depth_settings {n : ℕ} : n ≤ depth (render connection.settingsParts settingsRest) ↔
    n ≤ 12 ∧ ∀ s ∈ connection.settingsValues, Indents newlines n s := by
  refine (le_depth_render connection.hasHead_settings ?_ ?_).trans (and_congr_right fun _ => ?_)
  · simp only [settingsParts, List.forall_mem_cons, List.not_mem_nil, false_implies, implies_true,
      and_true]
    repeat rw [lit_ofList]
    decide
  · rw [settingsRest, lit_ofList]
    decide
  · simp only [settingsParts, settingsValues, List.map_cons, List.map_nil, List.forall_mem_cons,
      List.not_mem_nil, false_implies, implies_true, and_true]
    tauto

/-- What becomes of a value. -/
def relaySettings (v : PyStr) : PyStr :=
  relay newlines (.dedent (depth (render connection.settingsParts settingsRest))) v

lemma isText_getCacheSettings : IsText connection.getCacheSettings
    ((scanned connection.codeParts).map (Prod.map id connection.relaySettings))
    (scan .code codeRest).2 := by
  have hsettings := (connection.isText_settings.dedent connection.hasHead_settings).append_code
    (show IsCode newlines (lit "\n") by decide)
  -- the layout of the code does not show in its tokens
  have hparts : scanned connection.codeParts = scanned connection.settingsParts := by
    simp only [scanned, codeParts, settingsParts, List.map_cons, List.map_nil, List.cons.injEq,
      Prod.mk.injEq, and_true]
    repeat rw [lit_ofList]
    decide
  have hrest : (scan .code codeRest).2 =
      (scan .code settingsRest).2 ++ (scan .code (lit "\n")).2 := by
    rw [codeRest, settingsRest]
    repeat rw [lit_ofList]
    decide
  rw [hparts, hrest]
  exact hsettings

/-- The settings have the values of the connection exactly if no value has a line break, or all
lines behind line breaks have no space in common. -/
theorem tokens_getCacheSettings_iff :
    tokens connection.getCacheSettings = some connection.settingTokens ↔
      Aligned 0 connection.settingsValues := by
  rw [connection.isText_getCacheSettings.tokens_eq, Option.some_inj, settingTokens]
  refine Iff.trans (fill_inj ?_) ?_
  · rw [List.map_map]
    rfl
  rw [← aligned_iff (by omega) fun _ => connection.le_depth_settings]
  simp only [scanned, codeParts, List.map_cons, List.map_nil, List.cons.injEq, Prod.map_apply,
    Prod.mk.injEq, id_eq, true_and, and_true, settingsValues, List.forall_mem_cons,
    List.not_mem_nil, false_implies, implies_true]
  have hrelay : ∀ v, relay newlines ⟨0, depth (render connection.settingsParts settingsRest), none⟩ v
      = connection.relaySettings v := fun _ => rfl
  simp only [hrelay]
  tauto

end ValkeyConnectionInfo
end MediawikiCharm
