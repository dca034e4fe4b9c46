import ProgrammableSolana.Core.Opaque
import ProgrammableSolana.Solana.CallProgress

/-! What the engine sees of the opaque accounts a Core hands on, and why it may have them. -/
namespace ProgrammableSolana.Core

open ProgrammableSolana.Lib ProgrammableSolana.Solana ProgrammableSolana.Wire

/-- The descriptor says of its account what the ledger does, and asks for no signature. -/
structure Described (L : Ledger) (d : CapabilityDescriptor) : Prop where
  owner : d.owner = (L d.key).owner
  isExecutable : d.isExecutable = (L d.key).executable
  isSigner : d.isSigner = false

/-- The position a descriptor is seen at. -/
def opaqueView (d : CapabilityDescriptor) : AccountInfo := ⟨d.key, false, d.isWritable⟩

private theorem opaqueMeta_congr {d d' : CapabilityDescriptor} (hkey : d.key = d'.key)
    (hwritable : d.isWritable = d'.isWritable) : opaqueMeta d = opaqueMeta d' := by
  unfold opaqueMeta
  rw [hkey, hwritable]

section Admission

variable {cfg : Config} {L : Ledger} {infos : List AccountInfo} {fixedEnvelopeKeys : List Pubkey}
  {ds : List CapabilityDescriptor}
  (h : List.Forall₂ (fun info d => Admitted cfg (infos.map (accountView L)) fixedEnvelopeKeys
    (accountView L info) d) infos ds)

include h

theorem admitted_described {d : CapabilityDescriptor} (hd : d ∈ ds) : Described L d := by
  obtain ⟨info, -, hadmitted⟩ := exists_of_forall₂_mem h hd
  have hkey := hadmitted.key
  constructor
  · rw [hkey]
    exact hadmitted.owner
  · rw [hkey]
    exact hadmitted.isExecutable
  · exact hadmitted.isSigner

theorem admitted_agree {d d' : CapabilityDescriptor} (hd : d ∈ ds) (hd' : d' ∈ ds)
    (hkey : d.key = d'.key) : d.isWritable = d'.isWritable := by
  obtain ⟨info, -, hadmitted⟩ := exists_of_forall₂_mem h hd
  obtain ⟨info', -, hadmitted'⟩ := exists_of_forall₂_mem h hd'
  rw [hadmitted.isWritable, hadmitted'.isWritable, ← hadmitted.key, ← hadmitted'.key, hkey]

theorem admitted_notFixed {d : CapabilityDescriptor} (hd : d ∈ ds) :
    d.key ∉ fixedEnvelopeKeys := by
  obtain ⟨info, -, hadmitted⟩ := exists_of_forall₂_mem h hd
  rw [hadmitted.key]
  exact hadmitted.notFixed

/-- The caller holds what a descriptor asks for, and what a weaker one does. -/
theorem admitted_granted {caller : List AccountInfo} (hcaller : ∀ info ∈ infos, info ∈ caller)
    {pdaSigners : List Pubkey} {d d' : CapabilityDescriptor} (hd : d ∈ ds) (hweak : Weakens d' d) :
    (opaqueMeta d').Granted caller pdaSigners := by
  obtain ⟨info, -, hadmitted⟩ := exists_of_forall₂_mem h hd
  constructor
  · intro hw
    rw [opaqueMeta_isWritable] at hw
    have heffective := hadmitted.isWritable.symm.trans (hweak.isWritable hw)
    rw [effectiveIsWritable_map, List.any_eq_true] at heffective
    obtain ⟨other, hother, hboth⟩ := heffective
    rw [Bool.and_eq_true, decide_eq_true_eq] at hboth
    refine ⟨other, hcaller other hother, ?_, hboth.2⟩
    rw [hboth.1, opaqueMeta_pubkey, hweak.key, hadmitted.key]
  · intro hs
    rw [opaqueMeta_isSigner] at hs
    cases hs

end Admission

/-- A call of two own positions and opaque ones is seen as it was made, where the opaque accounts are
others and their positions agree. -/
theorem presented_capabilities {ix : Instruction} {p q : AccountMeta}
    {ds : List CapabilityDescriptor} (hmetas : ix.accounts = p :: q :: ds.map opaqueMeta)
    (hne : p.pubkey ≠ q.pubkey) (hp : ∀ d ∈ ds, d.key ≠ p.pubkey) (hq : ∀ d ∈ ds, d.key ≠ q.pubkey)
    (hagree : ∀ d ∈ ds, ∀ d' ∈ ds, d.key = d'.key → d.isWritable = d'.isWritable) :
    ix.presented = ⟨p.pubkey, p.isSigner, p.isWritable⟩ :: ⟨q.pubkey, q.isSigner, q.isWritable⟩ ::
      ds.map opaqueView := by
  rw [presented_of_agree]
  · rw [hmetas, List.map_cons, List.map_cons, List.map_map]
    congr 2
    apply List.map_congr_left
    intro d _
    simp [opaqueView]
  · rw [hmetas]
    have hviews : ∀ m ∈ ds.map opaqueMeta, m.pubkey ≠ p.pubkey ∧ m.pubkey ≠ q.pubkey := by
      intro m hm
      obtain ⟨d, hd, rfl⟩ := List.mem_map.mp hm
      rw [opaqueMeta_pubkey]
      exact ⟨hp d hd, hq d hd⟩
    have hsame : ∀ m ∈ ds.map opaqueMeta, ∀ n ∈ ds.map opaqueMeta, n.pubkey = m.pubkey → n = m := by
      intro m hm n hn hkey
      obtain ⟨d, hd, rfl⟩ := List.mem_map.mp hm
      obtain ⟨d', hd', rfl⟩ := List.mem_map.mp hn
      rw [opaqueMeta_pubkey, opaqueMeta_pubkey] at hkey
      exact opaqueMeta_congr hkey (hagree d' hd' d hd hkey)
    intro m hm n hn hkey
    rcases List.mem_cons.mp hm with rfl | hm₁
    · rcases List.mem_cons.mp hn with rfl | hn₁
      · rfl
      · rcases List.mem_cons.mp hn₁ with rfl | hn₂
        · exact absurd hkey.symm hne
        · exact absurd hkey (hviews n hn₂).1
    · rcases List.mem_cons.mp hm₁ with rfl | hm₂
      · rcases List.mem_cons.mp hn with rfl | hn₁
        · exact absurd hkey hne
        · rcases List.mem_cons.mp hn₁ with rfl | hn₂
          · rfl
          · exact absurd hkey (hviews n hn₂).2
      · rcases List.mem_cons.mp hn with rfl | hn₁
        · exact absurd hkey.symm (hviews m hm₂).1
        · rcases List.mem_cons.mp hn₁ with rfl | hn₂
          · exact absurd hkey.symm (hviews m hm₂).2
          · exact hsame m hm₂ n hn₂ hkey

end ProgrammableSolana.Core
