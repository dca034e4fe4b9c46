import ProgrammableSolana.Core.Books
import Mathlib.Algebra.Group.Pi.Basic

/-! The books of a ledger, and when a change of the ledger is a step of the custodian who keeps
them. -/
namespace ProgrammableSolana.Core

open ProgrammableSolana.Lib ProgrammableSolana.Solana ProgrammableSolana.Lib.Custody

variable [Crypto] (cfg : Config)

open Classical in
/-- The book of the market at an address, where there is a complete market. -/
noncomputable def bookOf (L : Ledger) (key : Pubkey) : Option Book :=
  if h : ∃ r, MarketOk cfg L key r then some h.choose.book else none

/-- A change of the ledger in which every market moves by its flow and new markets start empty. -/
structure Refines (L : Ledger) (flow : Pubkey → Flow) (L' : Ledger) : Prop where
  kept : ∀ key r, MarketOk cfg L key r →
    ∃ r', MarketOk cfg L' key r' ∧ r'.market = r.market ∧ Moves r.book (flow key) r'.book
  opened : ∀ k s, L'.state? cfg.ID k = some s → (∃ s', L.state? cfg.ID k = some s') ∨
    ∃ key r, MarketOk cfg L' key r ∧ r.owns key k ∧ r.book.Solvent ∧ Balanced 0 r.book
  idle : ∀ key, (∀ r, ¬ MarketOk cfg L key r) → flow key = 0

variable {cfg} {L L' : Ledger}

theorem bookOf_eq_some {key : Pubkey} {b : Book} :
    bookOf cfg L key = some b ↔ ∃ r, MarketOk cfg L key r ∧ r.book = b := by
  unfold bookOf
  constructor
  · intro h
    split at h
    · next hex =>
      rw [Option.some.injEq] at h
      exact ⟨_, hex.choose_spec, h⟩
    · cases h
  · rintro ⟨r, hr, rfl⟩
    have hex : ∃ r, MarketOk cfg L key r := ⟨r, hr⟩
    rw [dif_pos hex, hex.choose_spec.unique hr]

theorem bookOf_eq_none {key : Pubkey} : bookOf cfg L key = none ↔ ∀ r, ¬ MarketOk cfg L key r := by
  unfold bookOf
  split
  · next h => simpa using h
  · next h => simpa using h

/-- The market address and the market itself fix where everything else of a market lies. -/
theorem MarketOk.owns_congr {key k : Pubkey} {r r' : MarketRecord} (h : MarketOk cfg L key r)
    (h' : MarketOk cfg L' key r') (hm : r'.market = r.market) (hk : r.owns key k) :
    r'.owns key k := by
  have hd := h'.domainAddress.symm.trans h.domainAddress
  have hf := h'.feeLedgerAddress
  rw [hm, h.feeLedgerAddress] at hf
  simp only [Option.some.injEq, Prod.mk.injEq] at hd hf
  rcases hk with rfl | rfl | rfl
  · exact .inl rfl
  · exact .inr (.inl hd.1.symm)
  · exact .inr (.inr hf.1)

/-- Only the market account of a record is a market. -/
theorem MarketOk.key_of_owns {key k : Pubkey} {r : MarketRecord} (h : MarketOk cfg L key r)
    (hk : r.owns key k) {m : MarketV0} (hm : L.state? cfg.ID k = some (.market m)) : k = key := by
  rcases hk with rfl | rfl | rfl
  · rfl
  · simpa using h.domain.symm.trans hm
  · simpa using h.feeLedger.symm.trans hm

theorem Refines.inv {flow : Pubkey → Flow} (h : Refines cfg L flow L') (hinv : Inv cfg L) :
    Inv cfg L' := by
  intro k s hs
  rcases h.opened k s hs with ⟨s', hs'⟩ | ⟨key, r, hr, hk, -⟩
  · obtain ⟨key, r, hr, hk⟩ := hinv k s' hs'
    obtain ⟨r', hr', hm, -⟩ := h.kept key r hr
    exact ⟨key, r', hr', hr.owns_congr hr' hm hk⟩
  · exact ⟨key, r, hr, hk⟩

/-- The refinement: on the books, the change is one custody step. -/
theorem Refines.step {flow : Pubkey → Flow} (h : Refines cfg L flow L') (hinv : Inv cfg L) :
    Step (bookOf cfg L) flow (bookOf cfg L') where
  moved key b hb := by
    obtain ⟨r, hr, rfl⟩ := bookOf_eq_some.mp hb
    obtain ⟨r', hr', -, hmoves⟩ := h.kept key r hr
    exact ⟨r'.book, bookOf_eq_some.mpr ⟨r', hr', rfl⟩, hmoves⟩
  opened key hnone := by
    have hclosed := bookOf_eq_none.mp hnone
    refine ⟨h.idle key hclosed, fun b' hb' => ?_⟩
    obtain ⟨r', hr', rfl⟩ := bookOf_eq_some.mp hb'
    rcases h.opened key _ hr'.market with ⟨s', hs'⟩ | ⟨key₁, r₁, hr₁, hk, hsolvent, hbalanced⟩
    · obtain ⟨key₁, r₁, hr₁, hk⟩ := hinv key s' hs'
      obtain ⟨r₁', hr₁', hm, -⟩ := h.kept key₁ r₁ hr₁
      obtain rfl := hr₁'.key_of_owns (hr₁.owns_congr hr₁' hm hk) hr'.market
      exact absurd hr₁ (hclosed r₁)
    · obtain rfl := hr₁.key_of_owns hk hr'.market
      rw [hr'.unique hr₁]
      exact ⟨hsolvent, hbalanced⟩

theorem MarketOk.kept_of_spares {key : Pubkey} {r : MarketRecord} (h : MarketOk cfg L key r)
    (hs : Spares L L' key r) :
    ∃ r', MarketOk cfg L' key r' ∧ r'.market = r.market ∧ Moves r.book 0 r'.book := by
  obtain ⟨a, b, f, hr', ha, hb, hf⟩ := h.spared hs
  rw [UInt64.le_iff_toNat_le] at ha hb hf
  refine ⟨_, hr', rfl, ?_⟩
  constructor <;> simp [MarketRecord.book, MarketRecord.rebooked, ha, hb, hf]

/-- A change that spares every market and creates none is an idle step. -/
theorem refines_of_spares (hs : ∀ key r, MarketOk cfg L key r → Spares L L' key r)
    (hold : ∀ k s, L'.state? cfg.ID k = some s → ∃ s', L.state? cfg.ID k = some s') :
    Refines cfg L 0 L' :=
  ⟨fun key r hr => hr.kept_of_spares (hs key r hr), fun k s h => .inl (hold k s h),
    fun _ _ => rfl⟩

/-- An operation on the market at `key` with the given flow; every other market is spared. -/
structure ActsOn (cfg : Config) (L L' : Ledger) (key : Pubkey) (r r' : MarketRecord) (f : Flow) :
    Prop where
  before : MarketOk cfg L key r
  after : MarketOk cfg L' key r'
  market : r'.market = r.market
  moves : Moves r.book f r'.book
  others : ∀ key' r', MarketOk cfg L key' r' → key' ≠ key → Spares L L' key' r'
  old : ∀ k s, L'.state? cfg.ID k = some s → ∃ s', L.state? cfg.ID k = some s'

theorem ActsOn.refines {key : Pubkey} {r r' : MarketRecord} {f : Flow}
    (h : ActsOn cfg L L' key r r' f) : Refines cfg L (Pi.single key f) L' where
  kept key' r₁ hr₁ := by
    by_cases hkey : key' = key
    · subst hkey
      rw [Pi.single_eq_same]
      obtain rfl := hr₁.unique h.before
      exact ⟨r', h.after, h.market, h.moves⟩
    · rw [Pi.single_eq_of_ne hkey]
      exact hr₁.kept_of_spares (h.others key' r₁ hr₁ hkey)
  opened k s hs := .inl (h.old k s hs)
  idle key' hclosed := by
    refine Pi.single_eq_of_ne ?_ _
    rintro rfl
    exact hclosed r h.before

section Foreign

variable {writable : Pubkey → Bool}

omit [Crypto] in
/-- State is never blank, so no other program brings it about. -/
theorem state_of_confined {k : Pubkey} {s : CoreState} (h : Confined cfg.ID writable L L')
    (hs : L'.state? cfg.ID k = some s) : L.state? cfg.ID k = some s := by
  obtain ⟨howner, hdata⟩ := Ledger.state?_eq_some.mp hs
  rcases h.fresh k howner with heq | hblank
  · rw [← hs, Ledger.state?_congr heq]
  · simp [Account.Blank, hdata] at hblank

/-- Calls that cannot write to Token-owned accounts leave every market as it is. -/
theorem spares_of_confined {key : Pubkey} {r : MarketRecord} (h : Confined cfg.ID writable L L')
    (hw : ∀ k, (L k).owner = tokenProgram → writable k = false) (hr : MarketOk cfg L key r) :
    Spares L L' key r where
  market := h.own _ (Ledger.state?_eq_some.mp hr.market).1
  domain := h.own _ (Ledger.state?_eq_some.mp hr.domain).1
  feeLedger := h.own _ (Ledger.state?_eq_some.mp hr.feeLedger).1
  vault k _ t ht :=
    have heq := h.frame k (hw k (Ledger.token?_eq_some.mp ht).1)
    ⟨t.amount, (Ledger.token?_congr heq).trans ht, UInt64.le_refl _⟩
  mint k hk := by
    obtain ⟨m, hm, hfreeze⟩ := hk
    have heq := h.frame k (hw k (Ledger.mint?_eq_some.mp hm).1)
    exact ⟨m, (Ledger.mint?_congr heq).trans hm, hfreeze⟩

omit [Crypto] in
theorem MintOk.token {op : TokenOp} {signers : List Pubkey} (hop : op.apply L signers = .ok L')
    {k : Pubkey} (hk : MintOk L k) : MintOk L' k := by
  obtain ⟨m, hm, hfreeze⟩ := hk
  obtain ⟨m', hm', -, -, hf⟩ := (TokenOp.apply_cases hop k).mint_kept hm
  exact ⟨m', hm', hf hfreeze⟩

/-- A Token instruction none of whose signers is an address of the Core spares every market. -/
theorem spares_of_token {key : Pubkey} {r : MarketRecord} {op : TokenOp} {signers : List Pubkey}
    (hop : op.apply L signers = .ok L') (hsigners : ∀ k ∈ signers, ¬ IsPda cfg.ID k)
    (hr : MarketOk cfg L key r) : Spares L L' key r where
  market := (TokenOp.apply_cases hop _).foreign
    (by rw [(Ledger.state?_eq_some.mp hr.market).1]; exact cfg.ID_ne_token)
  domain := (TokenOp.apply_cases hop _).foreign
    (by rw [(Ledger.state?_eq_some.mp hr.domain).1]; exact cfg.ID_ne_token)
  feeLedger := (TokenOp.apply_cases hop _).foreign
    (by rw [(Ledger.state?_eq_some.mp hr.feeLedger).1]; exact cfg.ID_ne_token)
  vault k hk t ht := by
    obtain ⟨t', mint, authority, ht', hp, ⟨m, hm, hfreeze⟩, -⟩ := hr.vault_profile hk
    obtain rfl : t' = t := Option.some.inj (ht'.symm.trans ht)
    have hpda : IsPda cfg.ID t'.owner := hr.vault_owner_isPda hk ht
    have hu : Unsigned t' signers :=
      ⟨fun hs => hsigners _ hs hpda, by simp [hp.delegate], by simp [hp.closeAuthority]⟩
    obtain ⟨amount, state, hL', hle, hstate⟩ := (TokenOp.apply_cases hop k).unsigned ht hu
    have hs : state = t'.state := hstate m (by rw [hp.mint, hm]) hfreeze
    refine ⟨amount, ?_, hle⟩
    rw [Ledger.token?_eq_some, hL', hs]
    exact ⟨(Ledger.token?_eq_some.mp ht).1, rfl⟩
  mint k hk := hk.token hop

/-- Everything a program other than the Core can be asked to do. -/
def anyPrivileges (programId : Pubkey) : Privileges where
  writable _ := true
  callable program := program ≠ programId
  signers := []

/-- What other programs do on their own is an idle step. -/
theorem refines_of_action {a : Action cfg.ID} {w w' : World}
    (h : (a.perform (anyPrivileges cfg.ID)).run w = (.ok (), w')) :
    Refines cfg w.ledger 0 w'.ledger := by
  have hconf : Confined cfg.ID (anyPrivileges cfg.ID).writable w.ledger w'.ledger :=
    Action.perform_confined cfg.ID_ne_token cfg.ID_ne_system (by simp [anyPrivileges]) h
  refine refines_of_spares (fun key r hr => ?_) fun k s hs => ⟨s, state_of_confined hconf hs⟩
  rcases Action.perform_ok h with
    ⟨program, k₀, newOwner, executable, bytes, -, -, hprogram, -, howner, -, rfl⟩ |
    ⟨op, signers, ledger, -, -, -, hop, rfl⟩
  · have hone : Confined cfg.ID (fun k => k = k₀) w.ledger
        (Function.update w.ledger k₀ ⟨newOwner, executable, .raw bytes⟩) :=
      ⟨fun k hk => Function.update_of_ne (by simpa using hk) _ _, hconf.own, hconf.fresh⟩
    refine spares_of_confined hone (fun k hk => ?_) hr
    simp only [decide_eq_false_iff_not]
    rintro rfl
    exact hprogram (howner.symm.trans hk)
  · refine spares_of_token hop (fun k hk => ?_) hr
    simp only [anyPrivileges, List.append_nil, List.mem_map] at hk
    obtain ⟨s, -, rfl⟩ := hk
    exact s.notPda

end Foreign

end ProgrammableSolana.Core
