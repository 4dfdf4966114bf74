import RethGnosis.Block.Rewrites

set_option autoImplicit false

/-!
# Accounts whose read fails in a bytecode rewrite

Both rewrites take the default account for one they could not read, so what they commit for
it has balance and nonce 0.
-/
namespace RethGnosis
open Overlay

section Unread
variable {δ ε : Type} (ext : Externals δ ε) (stored : Address → AccountInfo)

def ReadFails (db : δ) (a : Address) : Prop := ∃ e, ext.basic db a = .error e

def KeepsUnread (db : δ) (addresses : List Address) (diff : EvmState) : Prop :=
  ∀ a ∈ addresses, ReadFails ext db a → ∀ account, diff[a]? = some account →
    account.info.balance = (stored a).balance ∧ account.info.nonce = (stored a).nonce

/-- An entry that is harmless when its account cannot be read: it expects no code, as the default
account has, or the stored account has nothing to lose. -/
def SafeUnread (e : RewriteEntry) : Prop :=
  e.2.2 = KECCAK_EMPTY ∨ (stored e.1).balance = 0 ∧ (stored e.1).nonce = 0

variable {ext stored}

theorem ReadFails.originalAccountInfo_eq {db : δ} {a : Address} (h : ReadFails ext db a) :
    originalAccountInfo ext db a = AccountInfo.default := by
  obtain ⟨e, he⟩ := h
  rw [originalAccountInfo, he]

/-- Without its account an entry is skipped when it expects no code, and else zeroes it. -/
theorem ReadFails.rewriteOf_eq {db : δ} {e : RewriteEntry} (h : ReadFails ext db e.1) :
    rewriteOf ext db e = if e.2.2 = KECCAK_EMPTY then none
      else some (rewrittenAccount AccountInfo.default (codeHashOf ext e.2.1) e.2.1) := by
  unfold rewriteOf
  rw [h.originalAccountInfo_eq]
  exact if_congr eq_comm rfl rfl

theorem keepsUnread_iff (db : δ) (entries : List RewriteEntry) :
    KeepsUnread ext stored db (entries.map Prod.fst)
        (overlay Prod.fst (rewriteOf ext db) entries) ↔
      ∀ e ∈ entries, ReadFails ext db e.1 → SafeUnread stored e := by
  constructor
  · intro h e he hfails
    by_cases hempty : e.2.2 = KECCAK_EMPTY
    · exact .inl hempty
    · have hvalue : (rewriteOf ext db e).isSome := by
        rw [hfails.rewriteOf_eq, if_neg hempty]
        rfl
      have hpresent : (overlay Prod.fst (rewriteOf ext db) entries)[e.1]?.isSome :=
        overlay_get_isSome he hvalue
      obtain ⟨account, haccount⟩ := Option.isSome_iff_exists.mp hpresent
      have hkept := h e.1 (List.mem_map_of_mem he) hfails account haccount
      -- The account may come from another entry of the address, with the same balance and nonce.
      obtain ⟨e', -, hkey, hput⟩ := overlay_get_eq_some haccount
      rw [(hkey ▸ hfails : ReadFails ext db e'.1).rewriteOf_eq] at hput
      split_ifs at hput
      cases hput
      exact .inr ⟨hkept.1.symm, hkept.2.symm⟩
  · intro h a _ hfails account haccount
    obtain ⟨e, he, rfl, hput⟩ := overlay_get_eq_some haccount
    rw [hfails.rewriteOf_eq] at hput
    split_ifs at hput with hempty
    cases hput
    rcases h e he hfails with hsafe | ⟨hbalance, hnonce⟩
    · contradiction
    · exact ⟨hbalance.symm, hnonce.symm⟩

/-- Neither rewrite fails, and what they commit keeps the unread accounts exactly if every entry
whose read fails is safe. -/
theorem rewrites_keep_unread_iff (s : ExecState δ) (config : BalancerHardforkConfig)
    (rewrites : BTreeMap Address Bytes) :
    (rewriteBytecodes ext config s =
        .ok () { s with db := ext.commit s.db (balancerRewrites ext s.db config) } ∧
      (KeepsUnread ext stored s.db (config.config.map Prod.fst)
          (balancerRewrites ext s.db config) ↔
        ∀ e ∈ config.config, ReadFails ext s.db e.1 → SafeUnread stored e)) ∧
    rewriteAuraBytecodes ext rewrites s =
      .ok () { s with db := ext.commit s.db (auraRewrites ext s.db rewrites) } ∧
    (KeepsUnread ext stored s.db (rewrites.toList.map Prod.fst)
        (auraRewrites ext s.db rewrites) ↔
      ∀ entry ∈ rewrites.toList, ReadFails ext s.db entry.1 →
        SafeUnread stored (auraEntry ext entry)) := by
  refine ⟨⟨rfl, ?_⟩, rfl, ?_⟩
  · rw [balancerRewrites_eq]
    exact keepsUnread_iff s.db config.config
  · have haddresses : rewrites.toList.map Prod.fst =
        (rewrites.toList.map (auraEntry ext)).map Prod.fst := by
      rw [List.map_map]
      rfl
    rw [auraRewrites_eq_in, auraRewritesIn_eq, haddresses, keepsUnread_iff]
    exact List.forall_mem_map

end Unread

section FailingRead

def failingWorld : Externals World String :=
  { hashingWorld with
    basic := fun world a =>
      if a = 7#160 then .error "read failed" else hashingWorld.basic world a }

def fundedState : ExecState World :=
  { hookedState with db := (hookedState.db).insert 7#160 ⟨⟨1000, 1, 1#256, some [1]⟩, ∅⟩ }

/-- Account 7 goes from balance 1000 and nonce 1 to nothing. -/
theorem failingWorld_zeroes :
    ReadFails failingWorld fundedState.db 7#160 ∧
    (World.infoOf fundedState.db 7#160).balance = 1000 ∧
    (World.infoOf fundedState.db 7#160).nonce = 1 ∧
    ¬ KeepsUnread failingWorld (World.infoOf fundedState.db) fundedState.db
      (threeRewrites.config.map Prod.fst)
      (balancerRewrites failingWorld fundedState.db threeRewrites) ∧
    (∃ t, rewriteBytecodes failingWorld threeRewrites fundedState = .ok () t ∧
      (World.infoOf t.db 7#160).balance = 0 ∧ (World.infoOf t.db 7#160).nonce = 0) ∧
    ∃ t, rewriteAuraBytecodes failingWorld ((∅ : BTreeMap Address Bytes).insert 7#160 [2])
        fundedState = .ok () t ∧
      (World.infoOf t.db 7#160).balance = 0 ∧ (World.infoOf t.db 7#160).nonce = 0 := by
  have hfails : ReadFails failingWorld fundedState.db 7#160 := ⟨_, rfl⟩
  refine ⟨hfails, by decide +kernel, by decide +kernel, ?_,
    ⟨_, rfl, by decide +kernel, by decide +kernel⟩, ⟨_, rfl, by decide +kernel, by decide +kernel⟩⟩
  intro hkeeps
  rw [balancerRewrites_eq, keepsUnread_iff] at hkeeps
  have hsafe := hkeeps (7#160, some [2], 2#256) (by decide) hfails
  revert hsafe
  unfold SafeUnread
  decide +kernel

end FailingRead

end RethGnosis
