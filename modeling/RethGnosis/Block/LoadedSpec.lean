import RethGnosis.Aura.Config
import RethGnosis.Block.HeaderLookups
import RethGnosis.Spec.GenesisHeader

set_option autoImplicit false

/-!
# From a genesis file to the Balancer rewrite

`parse_balancer_hardfork_config` of `consts.rs` and the part of `From<Genesis>` that parses the
two extra sections: what they cannot parse panics, and is never taken for an absent section.
The entries they load have distinct addresses and the hashes of their codes, so the executor's
rewrite is exact on every chain that was loaded from a file.
-/
namespace RethGnosis
open Entries Json Overlay

inductive LoadPanic where
  /-- `Error parsing balancerHardforkTime` -/
  | balancerHardforkTime
  /-- `Error parsing balancerHardforkBytecodes` -/
  | balancerHardforkBytecodes
  /-- `Unable to parse bytecode hex for {addr}` -/
  | bytecodeHex (addr : Address)
  /-- `malformed aura section in genesis: {e}` -/
  | aura (e : ConfigError)
deriving DecidableEq

/-- Besides the readers, hexadecimal code, its hash, and the order in which a `HashMap` gives its
entries. -/
structure GenesisReaders extends JsonReaders where
  fromHex : String → Option Bytes
  hashSlow : Bytes → B256
  visit : BTreeMap Address String → List (Address × String)

def readString : Json → Option String
  | .string text => some text
  | _ => none

section Load
variable (source : GenesisReaders)

def balancerEntry (entry : Address × String) : Except LoadPanic RewriteEntry :=
  if entry.2.isEmpty then .ok (entry.1, none, KECCAK_EMPTY)
  else
    match source.fromHex entry.2 with
    | some code => .ok (entry.1, some code, source.hashSlow code)
    | none => .error (.bytecodeHex entry.1)

def balancerEntries : List (Address × String) → Except LoadPanic (List RewriteEntry)
  | [] => .ok []
  | entry :: rest => do
    let first ← balancerEntry source entry
    let others ← balancerEntries rest
    return first :: others

def parseBalancerHardforkConfig (timeValue configValue : Option Json) :
    Except LoadPanic (Option BalancerHardforkConfig) :=
  match timeValue, configValue with
  | some time, some config =>
    match readU64 time with
    | none => .error .balancerHardforkTime
    | some activationTime =>
      match readMap (readAddressKey source.toJsonReaders) readString config with
      | none => .error .balancerHardforkBytecodes
      | some parsedMapping => do
        let entries ← balancerEntries source (source.visit parsedMapping)
        return some ⟨activationTime, entries⟩
  | _, _ => .ok none

/-- An absent section is allowed, a malformed one is not. -/
def parseAura : Option Json → Except LoadPanic (Option AuraConfig)
  | none => .ok none
  | some value =>
    match AuraConfig.fromJsonValue source.toJsonReaders value with
    | .ok config => .ok (some config)
    | .error e => .error (.aura e)

def loadGenesis (genesis : Genesis) (extraFields : String → Option Json) :
    Except LoadPanic GnosisChainSpec := do
  let balancerHardforkConfig ← parseBalancerHardforkConfig source
    (extraFields "balancerHardforkTime") (extraFields "balancerHardforkBytecodes")
  let auraConfig ← parseAura source (extraFields "aura")
  return GnosisChainSpec.ofGenesis { genesis with
    balancerHardforkConfig := balancerHardforkConfig
    auraConfig := auraConfig }

def codeOf (text : String) : Option (Option Bytes) :=
  if text.isEmpty then some none else (source.fromHex text).map some

def loadedHash : Option Bytes → B256
  | some code => source.hashSlow code
  | none => KECCAK_EMPTY

/-- The entries are those of the mapping, of two with one address the later, each with the code it
is written with and the hash of that code. -/
structure EntriesOf (mapping : Json) (entries : List RewriteEntry) : Prop where
  distinct : (entries.map Prod.fst).Nodup
  listed : ∀ a text, lastOf (mapping.entries (readAddressKey source.toJsonReaders) readString) a =
    some text → ∃ code, codeOf source text = some code ∧ (a, code, loadedHash source code) ∈ entries
  written : ∀ e ∈ entries, e.2.2 = loadedHash source e.2.1 ∧
    ∃ text, codeOf source text = some e.2.1 ∧
      lastOf (mapping.entries (readAddressKey source.toJsonReaders) readString) e.1 = some text

end Load

/-- The fork is active from its time on, and rewrites at the block that passes it and at no
other. -/
structure FiresOnce {δ ε : Type} (ext : Externals δ ε) (view : DbView δ)
    (chainSpec : GnosisChainSpec) (activation : ℕ) (entries : List RewriteEntry) : Prop where
  active : ∀ timestamp, chainSpec.isBalancerHardforkActiveAtTimestamp timestamp =
    decide (activation ≤ timestamp)
  fires : ∀ (executor : GnosisBlockExecutor) (s : ExecState δ), executor.spec = chainSpec →
    executor.ctx.parentTimestamp < activation → activation ≤ executor.block.timestamp →
      Rewritable ext view s.db entries →
        ∃ t, applyBalancerRewrites ext executor s = .ok () t ∧
          Rewritten ext view s.db t.db entries ∧
          ∀ order, order.Perm entries → rewriteBytecodes ext ⟨activation, order⟩ s = .ok () t
  rests : ∀ (executor : GnosisBlockExecutor) (s : ExecState δ), executor.spec = chainSpec →
    ¬(executor.ctx.parentTimestamp < activation ∧ activation ≤ executor.block.timestamp) →
      applyBalancerRewrites ext executor s = .ok () s

section Entries
variable {source : GenesisReaders} {genesis : Genesis}

theorem balancerEntry_ok {entry : Address × String} {e : RewriteEntry}
    (h : balancerEntry source entry = .ok e) :
    e.1 = entry.1 ∧ codeOf source entry.2 = some e.2.1 ∧ e.2.2 = loadedHash source e.2.1 := by
  unfold balancerEntry at h
  unfold codeOf
  split at h
  · next hempty =>
    obtain rfl := Except.ok.inj h
    exact ⟨rfl, if_pos hempty, rfl⟩
  · next hempty =>
    cases hcode : source.fromHex entry.2 with
    | none =>
      rw [hcode] at h
      cases h
    | some code =>
      rw [hcode] at h
      obtain rfl := Except.ok.inj h
      refine ⟨rfl, ?_, rfl⟩
      rw [if_neg hempty]
      rfl

theorem balancerEntries_ok {l : List (Address × String)} {entries : List RewriteEntry}
    (h : balancerEntries source l = .ok entries) :
    entries.map Prod.fst = l.map Prod.fst ∧
      (∀ entry ∈ l, ∃ e ∈ entries, balancerEntry source entry = .ok e) ∧
      ∀ e ∈ entries, ∃ entry ∈ l, balancerEntry source entry = .ok e := by
  induction l generalizing entries with
  | nil =>
    obtain rfl := Except.ok.inj h
    exact ⟨rfl, List.forall_mem_nil _, List.forall_mem_nil _⟩
  | cons entry rest ih =>
    obtain ⟨first, hfirst, hrest⟩ := except_bind_ok.mp h
    obtain ⟨others, hothers, hcons⟩ := except_bind_ok.mp hrest
    obtain rfl := Except.ok.inj hcons
    obtain ⟨haddresses, hleft, hright⟩ := ih hothers
    refine ⟨?_, ?_, ?_⟩
    · rw [List.map_cons, List.map_cons, haddresses, (balancerEntry_ok hfirst).1]
    · refine List.forall_mem_cons.mpr ⟨⟨first, List.mem_cons_self, hfirst⟩, ?_⟩
      intro other hother
      obtain ⟨e, he, hentry⟩ := hleft other hother
      exact ⟨e, List.mem_cons_of_mem first he, hentry⟩
    · refine List.forall_mem_cons.mpr ⟨⟨entry, List.mem_cons_self, hfirst⟩, ?_⟩
      intro e he
      obtain ⟨other, hother, hentry⟩ := hright e he
      exact ⟨other, List.mem_cons_of_mem entry hother, hentry⟩

theorem entriesOf_parsed (hvisit : ∀ m, (source.visit m).Perm m.toList) {mapping : Json}
    {parsed : BTreeMap Address String} {entries : List RewriteEntry}
    (hmap : readMap (readAddressKey source.toJsonReaders) readString mapping = some parsed)
    (hentries : balancerEntries source (source.visit parsed) = .ok entries) :
    EntriesOf source mapping entries := by
  obtain ⟨haddresses, hleft, hright⟩ := balancerEntries_ok hentries
  have hget : ∀ a text, (a, text) ∈ source.visit parsed ↔
      lastOf (mapping.entries (readAddressKey source.toJsonReaders) readString) a = some text := by
    intro a text
    rw [(hvisit parsed).mem_iff, Std.ExtTreeMap.mem_toList_iff_getElem?_eq_some,
      (readMap_eq_some_iff.mp hmap).2, getElem?_insertAll_empty]
  refine ⟨?_, ?_, ?_⟩
  · rw [haddresses, ((hvisit parsed).map Prod.fst).nodup_iff,
      Std.ExtTreeMap.map_fst_toList_eq_keys]
    exact BTreeMap.nodup_keys parsed
  · intro a text hlast
    obtain ⟨⟨b, code, hash⟩, he, hentry⟩ := hleft (a, text) ((hget a text).mpr hlast)
    obtain ⟨rfl, hcode, hhash⟩ := balancerEntry_ok hentry
    have hsame : hash = loadedHash source code := hhash
    exact ⟨code, hcode, hsame ▸ he⟩
  · intro e he
    obtain ⟨⟨a, text⟩, hmem, hentry⟩ := hright e he
    obtain ⟨haddress, hcode, hhash⟩ := balancerEntry_ok hentry
    exact ⟨hhash, text, hcode, haddress ▸ (hget a text).mp hmem⟩

theorem parseBalancer_ok (hvisit : ∀ m, (source.visit m).Perm m.toList) {time mapping : Json}
    {loaded : Option BalancerHardforkConfig}
    (h : parseBalancerHardforkConfig source (some time) (some mapping) = .ok loaded) :
    ∃ activation entries, readU64 time = some activation ∧ loaded = some ⟨activation, entries⟩ ∧
      EntriesOf source mapping entries := by
  unfold parseBalancerHardforkConfig at h
  dsimp only at h
  cases htime : readU64 time with
  | none =>
    rw [htime] at h
    cases h
  | some activation =>
    rw [htime] at h
    dsimp only at h
    cases hmap : readMap (readAddressKey source.toJsonReaders) readString mapping with
    | none =>
      rw [hmap] at h
      cases h
    | some parsed =>
      rw [hmap] at h
      obtain ⟨entries, hentries, hloaded⟩ := except_bind_ok.mp h
      exact ⟨activation, entries, rfl, (Except.ok.inj hloaded).symm,
        entriesOf_parsed hvisit hmap hentries⟩

theorem parseBalancer_missing {time mapping : Option Json} {loaded : Option BalancerHardforkConfig}
    (h : parseBalancerHardforkConfig source time mapping = .ok loaded)
    (hmissing : time = none ∨ mapping = none) : loaded = none := by
  unfold parseBalancerHardforkConfig at h
  rcases hmissing with rfl | rfl
  · exact (Except.ok.inj h).symm
  · cases time with
    | none => exact (Except.ok.inj h).symm
    | some time => exact (Except.ok.inj h).symm

theorem EntriesOf.consistent {δ ε : Type} {ext : Externals δ ε} {mapping : Json}
    {entries : List RewriteEntry} (h : EntriesOf source mapping entries)
    (hhash : ∀ code, ext.hashSlow code = source.hashSlow code) : Consistent ext entries := by
  refine ⟨h.distinct, ?_⟩
  intro e he
  rw [(h.written e he).1]
  cases e.2.1 with
  | none => rfl
  | some code => exact (hhash code).symm

theorem fork_balancer : (GnosisChainSpec.ofGenesis genesis).fork (.gnosis .BalancerFork) =
    (genesis.balancerHardforkConfig.map
      (fun config => ForkCondition.timestamp config.activationTime)).getD .never := by
  have hblocks : (blockHardforks genesis).lookup (.gnosis .BalancerFork) = none := by
    unfold blockHardforks
    split
    · exact lookup_configuredForks _ (by simp [mainnetHardforkOpts])
    · exact lookup_configuredForks _ (by simp [chiadoHardforkOpts])
  have hparis : (parisHardfork genesis).lookup (.gnosis .BalancerFork) = none := by
    unfold parisHardfork
    split <;> rfl
  have htimes : (configuredForks .timestamp (timeHardforkOpts genesis)).lookup
      (.gnosis .BalancerFork) = genesis.balancerHardforkConfig.map
        (fun config => ForkCondition.timestamp config.activationTime) := by
    unfold timeHardforkOpts
    cases genesis.shanghaiTime <;> cases genesis.cancunTime <;> cases genesis.pragueTime <;>
      cases genesis.balancerHardforkConfig <;> cases genesis.osakaTime <;> rfl
  unfold GnosisChainSpec.fork GnosisChainSpec.ofGenesis
  dsimp only
  rw [List.lookup_append, List.lookup_append, hblocks, hparis, htimes, Option.or_none,
    Option.none_or]

end Entries

section Loaded
variable {δ ε : Type} {ext : Externals δ ε} {view : DbView δ} {source : GenesisReaders}
  {genesis : Genesis} {extraFields : String → Option Json} {chainSpec : GnosisChainSpec}
  {activation : ℕ} {entries : List RewriteEntry}

theorem isBalancerActive_loaded
    (hconfig : genesis.balancerHardforkConfig = some ⟨activation, entries⟩) (timestamp : ℕ) :
    (GnosisChainSpec.ofGenesis genesis).isBalancerHardforkActiveAtTimestamp timestamp =
      decide (activation ≤ timestamp) := by
  rw [GnosisChainSpec.isBalancerHardforkActiveAtTimestamp, fork_balancer, hconfig]
  rfl

theorem isBalancerActive_missing (hconfig : genesis.balancerHardforkConfig = none)
    (timestamp : ℕ) :
    (GnosisChainSpec.ofGenesis genesis).isBalancerHardforkActiveAtTimestamp timestamp = false := by
  rw [GnosisChainSpec.isBalancerHardforkActiveAtTimestamp, fork_balancer, hconfig]
  rfl

theorem balancerActivates_loaded
    (hconfig : genesis.balancerHardforkConfig = some ⟨activation, entries⟩)
    {executor : GnosisBlockExecutor} (hspec : executor.spec = GnosisChainSpec.ofGenesis genesis) :
    balancerActivates executor = true ↔
      executor.ctx.parentTimestamp < activation ∧ activation ≤ executor.block.timestamp := by
  rw [balancerActivates, hspec, isBalancerActive_loaded hconfig, isBalancerActive_loaded hconfig]
  simp [and_comm]

theorem firesOnce_loaded (hlaws : CommitLaws ext view)
    (hconfig : genesis.balancerHardforkConfig = some ⟨activation, entries⟩)
    (hconsistent : Consistent ext entries) :
    FiresOnce ext view (GnosisChainSpec.ofGenesis genesis) activation entries := by
  refine ⟨isBalancerActive_loaded hconfig, ?_, ?_⟩
  · intro executor s hspec hparent hblock h
    have hrewritten := h.rewritten hlaws hconsistent
    have happly : applyBalancerRewrites ext executor =
        rewriteBytecodes ext ⟨activation, entries⟩ := by
      rw [applyBalancerRewrites_of_some ext (by rw [hspec]; exact hconfig),
        if_pos ((balancerActivates_loaded hconfig hspec).mpr ⟨hparent, hblock⟩)]
    refine ⟨{ s with db := ext.commit s.db (overlay Prod.fst (rewriteOf ext s.db) entries) }, ?_,
      hrewritten, ?_⟩
    · rw [happly, rewriteBytecodes_run]
    · intro order hperm
      rw [rewriteBytecodes_run, overlay_perm hconsistent.distinct hperm]
  · intro executor s hspec hrests
    rw [applyBalancerRewrites_of_some ext (by rw [hspec]; exact hconfig),
      if_neg (fun h => hrests ((balancerActivates_loaded hconfig hspec).mp h))]
    rfl

theorem loadGenesis_ok (h : loadGenesis source genesis extraFields = .ok chainSpec) :
    ∃ balancer aura, parseBalancerHardforkConfig source (extraFields "balancerHardforkTime")
        (extraFields "balancerHardforkBytecodes") = .ok balancer ∧
      parseAura source (extraFields "aura") = .ok aura ∧
      chainSpec = GnosisChainSpec.ofGenesis { genesis with
        balancerHardforkConfig := balancer
        auraConfig := aura } := by
  obtain ⟨balancer, hbalancer, hrest⟩ := except_bind_ok.mp h
  obtain ⟨aura, haura, hspec⟩ := except_bind_ok.mp hrest
  exact ⟨balancer, aura, hbalancer, haura, (Except.ok.inj hspec).symm⟩

theorem parseAura_ok {value : Json} {aura : Option AuraConfig}
    (h : parseAura source (some value) = .ok aura) :
    ∃ config, aura = some config ∧ Describes source.toJsonReaders value config := by
  unfold parseAura at h
  dsimp only at h
  cases hparse : AuraConfig.fromJsonValue source.toJsonReaders value with
  | error e =>
    rw [hparse] at h
    cases h
  | ok config =>
    rw [hparse] at h
    obtain ⟨raw, hraw, hgives⟩ := fromJsonValue_eq_ok_iff.mp hparse
    exact ⟨config, (Except.ok.inj h).symm, hgives.describes hraw⟩

/-- A genesis file that loads keeps its `aura` section, and its Balancer section becomes one
rewrite of exactly the accounts it lists, at the block that passes its time; without either of the
two Balancer fields there is no fork and no rewrite. -/
theorem loaded_spec (hlaws : CommitLaws ext view)
    (hvisit : ∀ m, (source.visit m).Perm m.toList)
    (hhash : ∀ code, ext.hashSlow code = source.hashSlow code)
    (hload : loadGenesis source genesis extraFields = .ok chainSpec) :
    (∀ value, extraFields "aura" = some value → ∃ config, chainSpec.auraConfig = some config ∧
      Describes source.toJsonReaders value config) ∧
    (extraFields "aura" = none → chainSpec.auraConfig = none) ∧
    (∀ time mapping, extraFields "balancerHardforkTime" = some time →
      extraFields "balancerHardforkBytecodes" = some mapping →
        ∃ activation entries, readU64 time = some activation ∧
          chainSpec.balancerHardforkConfig = some ⟨activation, entries⟩ ∧
          EntriesOf source mapping entries ∧ FiresOnce ext view chainSpec activation entries) ∧
    (extraFields "balancerHardforkTime" = none ∨ extraFields "balancerHardforkBytecodes" = none →
      chainSpec.balancerHardforkConfig = none ∧
      (∀ timestamp, chainSpec.isBalancerHardforkActiveAtTimestamp timestamp = false) ∧
      ∀ executor : GnosisBlockExecutor, executor.spec = chainSpec →
        applyBalancerRewrites ext executor = pure ()) := by
  obtain ⟨balancer, aura, hbalancer, haura, rfl⟩ := loadGenesis_ok hload
  refine ⟨?_, ?_, ?_, ?_⟩
  · intro value hvalue
    rw [hvalue] at haura
    exact parseAura_ok haura
  · intro hnone
    rw [hnone] at haura
    exact (Except.ok.inj haura).symm
  · intro time mapping htime hmapping
    rw [htime, hmapping] at hbalancer
    obtain ⟨activation, entries, hactivation, rfl, hentries⟩ := parseBalancer_ok hvisit hbalancer
    exact ⟨activation, entries, hactivation, rfl, hentries,
      firesOnce_loaded hlaws rfl (hentries.consistent hhash)⟩
  · intro hmissing
    obtain rfl := parseBalancer_missing hbalancer hmissing
    exact ⟨rfl, isBalancerActive_missing rfl, fun executor hspec =>
      applyBalancerRewrites_of_none ext (by rw [hspec]; rfl)⟩

end Loaded

section Reference

def worldReaders : GenesisReaders where
  toJsonReaders := hexReaders
  fromHex := readHex
  hashSlow := hashingWorld.hashSlow
  visit := fun m => m.toList

def threeRewritesFields : String → Option Json := fun name =>
  [ ("balancerHardforkTime", Json.number (some 1000)),
    ("balancerHardforkBytecodes", .object
      [ ("0x0000000000000000000000000000000000000007", .string "0x02"),
        ("0000000000000000000000000000000000000008", .string "03"),
        ("0x0000000000000000000000000000000000000015", .string "") ]) ].lookup name

def loadedBalancer (result : Except LoadPanic GnosisChainSpec) : Option BalancerHardforkConfig :=
  match result with
  | .ok chainSpec => chainSpec.balancerHardforkConfig
  | .error _ => none

theorem threeRewrites_loaded :
    ∃ chainSpec, loadGenesis worldReaders lateBalancer threeRewritesFields = .ok chainSpec ∧
      chainSpec.balancerHardforkConfig = some threeRewrites := by
  have hloaded : loadedBalancer (loadGenesis worldReaders lateBalancer threeRewritesFields) =
      some threeRewrites := by decide +kernel
  cases hload : loadGenesis worldReaders lateBalancer threeRewritesFields with
  | error panic =>
    rw [hload] at hloaded
    cases hloaded
  | ok chainSpec =>
    rw [hload] at hloaded
    exact ⟨chainSpec, rfl, hloaded⟩

theorem loaded_spec_threeRewrites :
    ∃ chainSpec, loadGenesis worldReaders lateBalancer threeRewritesFields = .ok chainSpec ∧
      chainSpec.auraConfig = none ∧
      FiresOnce hashingWorld worldDbView chainSpec 1000 threeRewrites.config ∧
      Rewritable hashingWorld worldDbView hookedState.db threeRewrites.config := by
  obtain ⟨chainSpec, hload, hconfig⟩ := threeRewrites_loaded
  have hloaded := loaded_spec hashingWorld_commitLaws (fun _ => List.Perm.refl _) (fun _ => rfl)
    hload
  obtain ⟨-, haura, hbalancer, -⟩ := hloaded
  obtain ⟨activation, entries, -, hspec, -, hfires⟩ := hbalancer _ _ rfl rfl
  rw [hconfig] at hspec
  cases hspec
  exact ⟨chainSpec, hload, haura rfl, hfires, threeRewrites_rewritable⟩

end Reference

end RethGnosis
