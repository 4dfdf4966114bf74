import RethGnosis.Library.Overlay
import RethGnosis.Block.SilentChanges

set_option autoImplicit false

/-!
# What a bytecode rewrite does to the accounts

Both rewrites are one loop over entries of an address, a code and its hash, which skips
an account that has the hash and commits the others with nothing but the code changed.
-/
namespace RethGnosis
open Overlay

/-- An address, the code it is given (or none) and the expected code hash. -/
abbrev RewriteEntry := Address × Option Bytes × B256

/-- What a database holds of an account besides the answer of `basic`. -/
structure DbView (δ : Type) where
  code : δ → Address → Bytes
  storage : δ → Address → U256 → U256

section Database
variable {δ ε : Type} (ext : Externals δ ε) (view : DbView δ)

def SameAccount (db post : δ) (a : Address) : Prop :=
  ext.basic post a = ext.basic db a ∧ view.code post a = view.code db a ∧
    view.storage post a = view.storage db a

/-- A commit installs the information of touched accounts and keeps their storage; accounts that are
not in the diff stay as they are. -/
structure CommitLaws : Prop where
  absent : ∀ (db : δ) (state : EvmState) (a : Address), state[a]? = none →
    SameAccount ext view db (ext.commit db state) a
  touched : ∀ (db : δ) (state : EvmState) (a : Address) (account : Account),
    state[a]? = some account → account.status = AccountStatus.Touched → account.storage = ∅ →
    account.info.isEmpty = false →
    (account.info.code = none → account.info.codeHash = KECCAK_EMPTY) →
      ext.basic (ext.commit db state) a = .ok (some account.info) ∧
        view.code (ext.commit db state) a = account.info.code.getD [] ∧
        view.storage (ext.commit db state) a = view.storage db a

def codeHashOf : Option Bytes → B256
  | some code => ext.hashSlow code
  | none => KECCAK_EMPTY

structure Consistent (entries : List RewriteEntry) : Prop where
  distinct : (entries.map Prod.fst).Nodup
  hashes : ∀ e ∈ entries, e.2.2 = codeHashOf ext e.2.1

/-- Reads succeed, code is stored under its hash without collisions with the configured codes, and
no cleared account is empty. -/
structure Rewritable (db : δ) (entries : List RewriteEntry) : Prop where
  reads : ∀ a, ∃ info, ext.basic db a = .ok info
  stored : ∀ e ∈ entries,
    ext.hashSlow (view.code db e.1) = (originalAccountInfo ext db e.1).codeHash
  noCollision : ∀ e ∈ entries,
    ext.hashSlow (view.code db e.1) = e.2.2 → view.code db e.1 = e.2.1.getD []
  notEmptied : ∀ e ∈ entries, (originalAccountInfo ext db e.1).codeHash ≠ e.2.2 →
    e.2.2 = KECCAK_EMPTY → (originalAccountInfo ext db e.1).balance ≠ 0 ∨
      (originalAccountInfo ext db e.1).nonce ≠ 0

structure RewrittenAt (db post : δ) (e : RewriteEntry) : Prop where
  reads : ∃ info, ext.basic post e.1 = .ok info
  codeHash : (originalAccountInfo ext post e.1).codeHash = e.2.2
  code : view.code post e.1 = e.2.1.getD []
  balance : (originalAccountInfo ext post e.1).balance = (originalAccountInfo ext db e.1).balance
  nonce : (originalAccountInfo ext post e.1).nonce = (originalAccountInfo ext db e.1).nonce
  storage : view.storage post e.1 = view.storage db e.1

structure Rewritten (db post : δ) (entries : List RewriteEntry) : Prop where
  configured : ∀ e ∈ entries, RewrittenAt ext view db post e
  others : ∀ a, a ∉ entries.map Prod.fst → SameAccount ext view db post a

def rewriteOf (db : δ) (e : RewriteEntry) : Option Account :=
  if (originalAccountInfo ext db e.1).codeHash = e.2.2 then none
  else some (rewrittenAccount (originalAccountInfo ext db e.1) (codeHashOf ext e.2.1) e.2.1)

theorem balancerRewrites_eq (db : δ) (config : BalancerHardforkConfig) :
    balancerRewrites ext db config = overlay Prod.fst (rewriteOf ext db) config.config := by
  unfold balancerRewrites overlay
  congr 1
  funext state e
  obtain ⟨addr, code, expected⟩ := e
  unfold put rewriteOf codeHashOf
  dsimp only
  split_ifs <;> rfl

/-- `rewrite_aura_bytecodes` with its entries visited in the given order. -/
def auraRewritesIn (db : δ) (order : List (Address × Bytes)) : EvmState :=
  order.foldl (fun state entry =>
    let original := originalAccountInfo ext db entry.1
    let newCodeHash := ext.hashSlow entry.2
    if original.codeHash = newCodeHash then state
    else state.insert entry.1 (rewrittenAccount original newCodeHash (some entry.2))) ∅

theorem auraRewrites_eq_in (db : δ) (rewrites : BTreeMap Address Bytes) :
    auraRewrites ext db rewrites = auraRewritesIn ext db rewrites.toList := rfl

def auraEntry (entry : Address × Bytes) : RewriteEntry :=
  (entry.1, some entry.2, ext.hashSlow entry.2)

theorem auraEntries_consistent (rewrites : BTreeMap Address Bytes) :
    Consistent ext (rewrites.toList.map (auraEntry ext)) := by
  constructor
  · have hkeys : (rewrites.toList.map (auraEntry ext)).map Prod.fst = rewrites.keys := by
      rw [List.map_map, ← Std.ExtTreeMap.map_fst_toList_eq_keys]
      rfl
    rw [hkeys]
    exact BTreeMap.nodup_keys rewrites
  · intro e he
    obtain ⟨entry, -, rfl⟩ := List.mem_map.mp he
    rfl

theorem auraRewritesIn_eq (db : δ) (order : List (Address × Bytes)) :
    auraRewritesIn ext db order =
      overlay Prod.fst (rewriteOf ext db) (order.map (auraEntry ext)) := by
  unfold auraRewritesIn overlay
  rw [List.foldl_map]
  congr 1
  funext state entry
  unfold put rewriteOf auraEntry codeHashOf
  dsimp only
  split_ifs <;> rfl

end Database

section Commit
variable {δ ε : Type} {ext : Externals δ ε} {view : DbView δ} {db : δ}
  {entries : List RewriteEntry}

theorem originalAccountInfo_of_some {info : AccountInfo} {a : Address}
    (h : ext.basic db a = .ok (some info)) : originalAccountInfo ext db a = info := by
  rw [originalAccountInfo, h]

theorem originalAccountInfo_congr {post : δ} {a : Address} (h : ext.basic post a = ext.basic db a) :
    originalAccountInfo ext post a = originalAccountInfo ext db a := by
  rw [originalAccountInfo, originalAccountInfo, h]

theorem Rewritable.at_skipped (h : Rewritable ext view db entries) {e : RewriteEntry}
    (he : e ∈ entries) (hskip : (originalAccountInfo ext db e.1).codeHash = e.2.2) {post : δ}
    (hsame : SameAccount ext view db post e.1) : RewrittenAt ext view db post e := by
  have hinfo := originalAccountInfo_congr hsame.1
  have hcode := h.noCollision e he (by rw [h.stored e he, hskip])
  refine ⟨?_, ?_, ?_, ?_, ?_, hsame.2.2⟩
  · rw [hsame.1]
    exact h.reads e.1
  · rw [hinfo, hskip]
  · rw [hsame.2.1, hcode]
  · rw [hinfo]
  · rw [hinfo]

theorem Rewritable.not_isEmpty (h : Rewritable ext view db entries)
    (hconsistent : Consistent ext entries) {e : RewriteEntry}
    (he : e ∈ entries) (hdiffers : (originalAccountInfo ext db e.1).codeHash ≠ e.2.2) :
    AccountInfo.isEmpty { originalAccountInfo ext db e.1 with
      codeHash := codeHashOf ext e.2.1
      code := e.2.1 } = false := by
  have hhash := hconsistent.hashes e he
  unfold AccountInfo.isEmpty
  dsimp only
  by_cases hempty : e.2.2 = KECCAK_EMPTY
  · rcases h.notEmptied e he hdiffers hempty with hbalance | hnonce
    · simp [hbalance]
    · simp [hnonce]
  · rw [hhash] at hempty
    simp [hempty]

theorem Rewritable.at_committed (hlaws : CommitLaws ext view) (h : Rewritable ext view db entries)
    (hconsistent : Consistent ext entries) {e : RewriteEntry} (he : e ∈ entries)
    (hdiffers : (originalAccountInfo ext db e.1).codeHash ≠ e.2.2) {state : EvmState}
    (hstate : state[e.1]? = some (rewrittenAccount (originalAccountInfo ext db e.1)
      (codeHashOf ext e.2.1) e.2.1)) :
    RewrittenAt ext view db (ext.commit db state) e := by
  have hcleared : e.2.1 = none → codeHashOf ext e.2.1 = KECCAK_EMPTY := by
    intro hnone
    rw [hnone]
    rfl
  obtain ⟨hbasic, hcode, hstorage⟩ := hlaws.touched db state e.1 _ hstate rfl rfl
    (h.not_isEmpty hconsistent he hdiffers) hcleared
  have hinfo := originalAccountInfo_of_some hbasic
  refine ⟨⟨_, hbasic⟩, ?_, hcode, ?_, ?_, hstorage⟩
  · rw [hinfo, hconsistent.hashes e he]
    rfl
  · rw [hinfo]
    rfl
  · rw [hinfo]
    rfl

theorem Rewritable.rewritten (hlaws : CommitLaws ext view) (h : Rewritable ext view db entries)
    (hconsistent : Consistent ext entries) :
    Rewritten ext view db (ext.commit db (overlay Prod.fst (rewriteOf ext db) entries))
      entries := by
  constructor
  · intro e he
    have hget := @overlay_get_of_mem _ _ _ _ _ Prod.fst (rewriteOf ext db) entries _
      hconsistent.distinct e he
    by_cases hskip : (originalAccountInfo ext db e.1).codeHash = e.2.2
    · rw [rewriteOf, if_pos hskip] at hget
      exact h.at_skipped he hskip (hlaws.absent db _ e.1 hget)
    · rw [rewriteOf, if_neg hskip] at hget
      exact h.at_committed hlaws hconsistent he hskip hget
  · intro a ha
    exact hlaws.absent db _ a (overlay_get_of_notMem ha)

theorem Rewritten.rewrites_eq_empty {post : δ} (h : Rewritten ext view db post entries) :
    overlay Prod.fst (rewriteOf ext post) entries = ∅ := by
  refine overlay_eq_empty ?_
  intro e he
  rw [rewriteOf, if_pos (h.configured e he).codeHash]

theorem CommitLaws.commit_empty (hlaws : CommitLaws ext view) (db : δ) (a : Address) :
    SameAccount ext view db (ext.commit db ∅) a :=
  hlaws.absent db ∅ a Std.ExtTreeMap.getElem?_empty

end Commit

section Exec
variable {δ ε : Type} {ext : Externals δ ε} {view : DbView δ}

theorem rewriteBytecodes_run (config : BalancerHardforkConfig) (s : ExecState δ) :
    rewriteBytecodes ext config s =
      .ok () { s with
        db := ext.commit s.db (overlay Prod.fst (rewriteOf ext s.db) config.config) } := by
  rw [← balancerRewrites_eq]
  rfl

theorem rewriteAuraBytecodes_run (rewrites : BTreeMap Address Bytes) (s : ExecState δ) :
    rewriteAuraBytecodes ext rewrites s =
      .ok () { s with
        db := ext.commit s.db
          (overlay Prod.fst (rewriteOf ext s.db) (rewrites.toList.map (auraEntry ext))) } := by
  rw [← auraRewritesIn_eq, ← auraRewrites_eq_in]
  rfl

/-- After `rewrite_bytecodes` (or `rewrite_aura_bytecodes`) every configured account has its code
and nothing else has changed, in whatever order the entries are visited; a second run changes
nothing. -/
theorem rewrites_exact (hlaws : CommitLaws ext view) :
    (∀ (s : ExecState δ) (config : BalancerHardforkConfig),
      Consistent ext config.config → Rewritable ext view s.db config.config →
        ∃ t, rewriteBytecodes ext config s = .ok () t ∧
          Rewritten ext view s.db t.db config.config ∧
          (∀ order, order.Perm config.config →
            rewriteBytecodes ext { config with config := order } s = .ok () t) ∧
          ∃ u, rewriteBytecodes ext config t = .ok () u ∧
            ∀ a, SameAccount ext view t.db u.db a) ∧
    ∀ (s : ExecState δ) (rewrites : BTreeMap Address Bytes),
      Rewritable ext view s.db (rewrites.toList.map (auraEntry ext)) →
        ∃ t, rewriteAuraBytecodes ext rewrites s = .ok () t ∧
          Rewritten ext view s.db t.db (rewrites.toList.map (auraEntry ext)) ∧
          (∀ order, order.Perm rewrites.toList →
            ext.commit s.db (auraRewritesIn ext s.db order) = t.db) ∧
          ∃ u, rewriteAuraBytecodes ext rewrites t = .ok () u ∧
            ∀ a, SameAccount ext view t.db u.db a := by
  constructor
  · intro s config hconsistent h
    have hrewritten := h.rewritten hlaws hconsistent
    refine ⟨_, rewriteBytecodes_run config s, hrewritten, ?_, _, rewriteBytecodes_run config _, ?_⟩
    · intro order hperm
      rw [rewriteBytecodes_run, overlay_perm hconsistent.distinct hperm]
    · intro a
      rw [hrewritten.rewrites_eq_empty]
      exact hlaws.commit_empty _ a
  · intro s rewrites h
    have hconsistent := auraEntries_consistent ext rewrites
    have hrewritten := h.rewritten hlaws hconsistent
    refine ⟨_, rewriteAuraBytecodes_run rewrites s, hrewritten, ?_, _,
      rewriteAuraBytecodes_run rewrites _, ?_⟩
    · intro order hperm
      rw [auraRewritesIn_eq, overlay_perm hconsistent.distinct (hperm.map (auraEntry ext))]
    · intro a
      rw [hrewritten.rewrites_eq_empty]
      exact hlaws.commit_empty _ a

end Exec

section World

def hashingWorld : Externals World String :=
  { worldExternals with
    hashSlow := fun code =>
      if code = [] then KECCAK_EMPTY else BitVec.ofNat 256 (beBytesToNat code) }

def worldDbView : DbView World where
  code := fun world a => (world.infoOf a).code.getD []
  storage := fun world a slot => (world.storageOf a).getD slot 0

def commitOver (account : Account) (stored : Option WorldAccount) : Option WorldAccount :=
  if account.status.touched = false then stored
  else if account.status.selfDestructed then none
  else if account.status.created then some ⟨account.info, writeSlots account.storage ∅⟩
  else if account.info.isEmpty then none
  else some ⟨account.info, writeSlots account.storage (stored.elim ∅ WorldAccount.storage)⟩

theorem commitAccount_local :
    Local Prod.fst (fun (entry : Address × Account) stored => commitOver entry.2 stored)
      (fun (world : World) entry => world.commitAccount entry.1 entry.2) := by
  constructor
  · rintro world ⟨a, account⟩
    have hstorage : World.storageOf world a = (world[a]?).elim ∅ WorldAccount.storage := by
      unfold World.storageOf
      cases world[a]? <;> rfl
    unfold World.commitAccount commitOver
    dsimp only
    rw [hstorage]
    split_ifs
    · rfl
    · rw [Std.ExtTreeMap.getElem?_erase_self]
    · rw [Std.ExtTreeMap.getElem?_insert_self]
    · rw [Std.ExtTreeMap.getElem?_erase_self]
    · rw [Std.ExtTreeMap.getElem?_insert_self]
  · rintro world ⟨a, account⟩ k hne
    have hcompare : ¬ compare a k = Ordering.eq := by simpa using hne
    unfold World.commitAccount
    dsimp only
    split_ifs
    · rfl
    · rw [Std.ExtTreeMap.getElem?_erase, if_neg hcompare]
    · rw [Std.ExtTreeMap.getElem?_insert, if_neg hcompare]
    · rw [Std.ExtTreeMap.getElem?_erase, if_neg hcompare]
    · rw [Std.ExtTreeMap.getElem?_insert, if_neg hcompare]

theorem commit_get_absent {world : World} {state : EvmState} {a : Address} (h : state[a]? = none) :
    (world.commit state)[a]? = world[a]? := by
  refine commitAccount_local.get_of_notMem ?_
  rw [Std.ExtTreeMap.map_fst_toList_eq_keys, Std.ExtTreeMap.mem_keys,
    Std.ExtTreeMap.mem_iff_isSome_getElem?, h]
  simp

theorem commit_get_present {world : World} {state : EvmState} {a : Address} {account : Account}
    (h : state[a]? = some account) : (world.commit state)[a]? = commitOver account world[a]? := by
  have hnodup : (state.toList.map Prod.fst).Nodup := by
    rw [Std.ExtTreeMap.map_fst_toList_eq_keys]
    exact BTreeMap.nodup_keys state
  have hmem := Std.ExtTreeMap.mem_toList_iff_getElem?_eq_some.mpr h
  exact commitAccount_local.get_of_mem hnodup hmem

theorem sameAccount_of_get {world post : World} {a : Address} (h : post[a]? = world[a]?) :
    SameAccount hashingWorld worldDbView world post a := by
  refine ⟨?_, ?_, ?_⟩
  · change Except.ok (post[a]?.map _) = Except.ok (world[a]?.map _)
    rw [h]
  · unfold worldDbView World.infoOf
    dsimp only
    rw [h]
  · unfold worldDbView World.storageOf
    dsimp only
    rw [h]

theorem hashingWorld_commitLaws : CommitLaws hashingWorld worldDbView := by
  constructor
  · intro world state a h
    exact sameAccount_of_get (commit_get_absent h)
  · intro world state a account hget hstatus hstorage hempty _
    have hcommit : (World.commit world state)[a]? =
        some ⟨account.info, (world[a]?).elim ∅ WorldAccount.storage⟩ := by
      rw [commit_get_present hget, commitOver, hstatus, hstorage, hempty]
      rfl
    refine ⟨?_, ?_, ?_⟩
    · change Except.ok ((World.commit world state)[a]?.map _) = _
      rw [hcommit]
      rfl
    · change ((World.commit world state).infoOf a).code.getD [] = _
      rw [World.infoOf, hcommit]
    · funext slot
      change ((World.commit world state).storageOf a).getD slot 0 =
        (World.storageOf world a).getD slot 0
      rw [World.storageOf, World.storageOf, hcommit]
      cases world[a]? <;> rfl

/-- Account 7 is given the code 2, account 8 does not exist and is given the code 3, and account 21
has no code and is given none. -/
def threeRewrites : BalancerHardforkConfig :=
  ⟨1000, [(7#160, some [2], 2#256), (8#160, some [3], 3#256), (21#160, none, KECCAK_EMPTY)]⟩

theorem threeRewrites_consistent : Consistent hashingWorld threeRewrites.config :=
  ⟨by decide, by decide⟩

theorem threeRewrites_rewritable :
    Rewritable hashingWorld worldDbView hookedState.db threeRewrites.config := by
  refine ⟨fun a => ⟨_, rfl⟩, ?_, ?_, ?_⟩
  · decide +kernel
  · decide +kernel
  · decide +kernel

theorem rewrites_exact_threeRewrites :
    ∃ t, rewriteBytecodes hashingWorld threeRewrites hookedState = .ok () t ∧
      Rewritten hashingWorld worldDbView hookedState.db t.db threeRewrites.config ∧
      (∀ order, order.Perm threeRewrites.config →
        rewriteBytecodes hashingWorld { threeRewrites with config := order } hookedState =
          .ok () t) ∧
      ∃ u, rewriteBytecodes hashingWorld threeRewrites t = .ok () u ∧
        ∀ a, SameAccount hashingWorld worldDbView t.db u.db a :=
  (rewrites_exact hashingWorld_commitLaws).1 hookedState threeRewrites threeRewrites_consistent
    threeRewrites_rewritable

end World

end RethGnosis
