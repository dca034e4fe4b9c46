import ProgrammableSolana.Solana.Confinement

/-! Allowances: what is delegated from a token account was approved by its owner, and approvals
are in the log. -/
namespace ProgrammableSolana.Solana

open ProgrammableSolana.Lib

namespace TokenOp

/-- The key whose signature an instruction asks for. -/
def authority : TokenOp → Option Pubkey
  | initializeMint _ _ _ _ => none
  | initializeAccount _ _ _ _ _ => none
  | transfer _ _ authority _ => some authority
  | transferChecked _ _ _ authority _ _ => some authority
  | approve _ _ owner _ => some owner
  | approveChecked _ _ _ owner _ _ => some owner
  | revoke _ owner => some owner
  | setAccountOwner _ _ authority => some authority
  | setCloseAuthority _ _ authority => some authority
  | setMintAuthority _ _ authority => some authority
  | setFreezeAuthority _ _ authority => some authority
  | mintTo _ _ authority _ => some authority
  | burn _ _ authority _ => some authority
  | closeAccount _ _ authority => some authority
  | freezeAccount _ _ authority => some authority
  | thawAccount _ _ authority => some authority
  | syncNative _ _ => none

/-- The delegate and the amount an instruction approves for `source` in the name of `owner`. -/
def approved? (op : TokenOp) (source owner : Pubkey) : Option (Pubkey × UInt64) :=
  match op with
  | approve s delegate o amount => if s = source ∧ o = owner then some (delegate, amount) else none
  | approveChecked s _ delegate o amount _ =>
    if s = source ∧ o = owner then some (delegate, amount) else none
  | _ => none

private theorem approved?_eq_some {op : TokenOp} {source owner delegate : Pubkey} {amount : UInt64} :
    op.approved? source owner = some (delegate, amount) ↔ op.Approves source delegate owner amount := by
  unfold Approves
  constructor
  · intro h
    cases op <;> simp only [approved?, reduceCtorEq] at h
    · split at h
      · next hs => simp_all
      · cases h
    · split at h
      · next hs => simp_all
      · cases h
  · rintro (rfl | ⟨mint, decimals, rfl⟩) <;> simp [approved?]

theorem Approves.authority {op : TokenOp} {source owner delegate : Pubkey} {amount : UInt64}
    (h : op.Approves source delegate owner amount) : op.authority = some owner := by
  rcases h with rfl | ⟨mint, decimals, rfl⟩
  · rfl
  · rfl

end TokenOp

section Authority

variable {σ : Type} {L L' : Ledger σ} {signers : List Pubkey}

private theorem validateOwner_congr {signers' : List Pubkey} {expected authority : Pubkey}
    (h : authority ∈ signers ↔ authority ∈ signers') :
    validateOwner signers expected authority = validateOwner signers' expected authority := by
  unfold validateOwner
  rw [require_congr h]

private theorem authorizeDebit_congr {signers' : List Pubkey} {t : TokenAccount} {authority : Pubkey}
    {amount : UInt64} (h : authority ∈ signers ↔ authority ∈ signers') :
    authorizeDebit signers t authority amount = authorizeDebit signers' t authority amount := by
  unfold authorizeDebit
  rw [validateOwner_congr h, require_congr h]

private theorem authorizeDebit_signed {t t' : TokenAccount} {authority : Pubkey} {amount : UInt64}
    (h : authorizeDebit signers t authority amount = .ok t') : authority ∈ signers := by
  rcases authorizeDebit_ok h with ⟨-, hs, -, -⟩ | ⟨-, -, hs, -⟩
  · exact hs
  · exact hs

/-- Of the signers an instruction looks at its authority alone. -/
theorem TokenOp.apply_congr {op : TokenOp} {signers' : List Pubkey}
    (h : ∀ a, op.authority = some a → (a ∈ signers ↔ a ∈ signers')) :
    op.apply L signers = op.apply L signers' := by
  cases op
  case initializeMint => rfl
  case initializeAccount => rfl
  case syncNative => rfl
  all_goals
    have ha := h _ rfl
    simp only [apply, processTransfer, processApprove, processRevoke, processSetAccountOwner,
      processSetCloseAuthority, processSetMintAuthority, processSetFreezeAuthority, processMintTo,
      processBurn, processCloseAccount, processToggleFreezeAccount, validateOwner_congr ha,
      authorizeDebit_congr ha]

private theorem processTransfer_signed {source destination authority : Pubkey} {amount : UInt64}
    {checked : Option (Pubkey × UInt8)}
    (h : processTransfer L signers source destination authority amount checked = .ok L') :
    authority ∈ signers := by
  obtain ⟨_, _, _, -, -, -, -, hdebit, -⟩ := processTransfer_ok h
  exact authorizeDebit_signed hdebit

private theorem processApprove_signed {source delegate owner : Pubkey} {amount : UInt64}
    {checked : Option (Pubkey × UInt8)}
    (h : processApprove L signers source delegate owner amount checked = .ok L') :
    owner ∈ signers := by
  simp only [processApprove, except_bind_ok_iff, validateOwner_ok_iff] at h
  obtain ⟨_, -, _, -, _, -, _, ⟨-, hs⟩, -⟩ := h
  exact hs

private theorem processToggleFreezeAccount_signed {account mint authority : Pubkey} {freeze : Bool}
    (h : processToggleFreezeAccount L signers account mint authority freeze = .ok L') :
    authority ∈ signers := by
  simp only [processToggleFreezeAccount, except_bind_ok_iff, validateOwner_ok_iff] at h
  obtain ⟨_, -, _, -, _, -, _, -, _, -, _, -, _, ⟨-, hs⟩, -⟩ := h
  exact hs

theorem TokenOp.apply_signed {op : TokenOp} (h : op.apply L signers = .ok L') {a : Pubkey}
    (ha : op.authority = some a) : a ∈ signers := by
  cases op with
  | initializeMint => cases ha
  | initializeAccount => cases ha
  | transfer =>
    cases ha
    exact processTransfer_signed h
  | transferChecked =>
    cases ha
    exact processTransfer_signed h
  | approve =>
    cases ha
    exact processApprove_signed h
  | approveChecked =>
    cases ha
    exact processApprove_signed h
  | revoke =>
    cases ha
    simp only [apply, processRevoke, except_bind_ok_iff, validateOwner_ok_iff] at h
    obtain ⟨_, -, _, -, _, ⟨-, hs⟩, -⟩ := h
    exact hs
  | setAccountOwner =>
    cases ha
    simp only [apply, processSetAccountOwner, except_bind_ok_iff, validateOwner_ok_iff] at h
    obtain ⟨_, -, _, -, _, ⟨-, hs⟩, -⟩ := h
    exact hs
  | setCloseAuthority =>
    cases ha
    simp only [apply, processSetCloseAuthority, except_bind_ok_iff, validateOwner_ok_iff] at h
    obtain ⟨_, -, _, -, _, ⟨-, hs⟩, -⟩ := h
    exact hs
  | setMintAuthority =>
    cases ha
    simp only [apply, processSetMintAuthority, except_bind_ok_iff, validateOwner_ok_iff] at h
    obtain ⟨_, -, _, -, _, ⟨-, hs⟩, -⟩ := h
    exact hs
  | setFreezeAuthority =>
    cases ha
    simp only [apply, processSetFreezeAuthority, except_bind_ok_iff, validateOwner_ok_iff] at h
    obtain ⟨_, -, _, -, _, ⟨-, hs⟩, -⟩ := h
    exact hs
  | mintTo =>
    cases ha
    simp only [apply, processMintTo, except_bind_ok_iff, validateOwner_ok_iff] at h
    obtain ⟨_, -, _, -, _, -, _, -, _, -, _, -, _, ⟨-, hs⟩, -⟩ := h
    exact hs
  | burn =>
    cases ha
    simp only [apply, processBurn, except_bind_ok_iff] at h
    obtain ⟨_, -, _, -, _, -, _, -, _, -, _, -, _, hdebit, -⟩ := h
    exact authorizeDebit_signed hdebit
  | closeAccount =>
    cases ha
    simp only [apply, processCloseAccount, except_bind_ok_iff, validateOwner_ok_iff] at h
    obtain ⟨_, -, _, -, _, -, _, ⟨-, hs⟩, -⟩ := h
    exact hs
  | freezeAccount =>
    cases ha
    exact processToggleFreezeAccount_signed h
  | thawAccount =>
    cases ha
    exact processToggleFreezeAccount_signed h
  | syncNative => cases ha

/-- No signature matters but the one an instruction asks for. -/
theorem TokenOp.apply_authority {op : TokenOp} (h : op.apply L signers = .ok L') :
    op.apply L op.authority.toList = .ok L' := by
  rw [← h]
  refine TokenOp.apply_congr fun a ha => ?_
  have hs : a ∈ signers := TokenOp.apply_signed h ha
  simp [ha, hs]

end Authority

section Delegation

variable {σ : Type} {L L' : Ledger σ}

/-- Who may spend from a token account besides its owner, and how much. -/
def Ledger.delegation (L : Ledger σ) (source : Pubkey) : Option (Pubkey × UInt64) :=
  (L.token? source).bind fun t => t.delegate.map fun delegate => (delegate, t.delegatedAmount)

theorem Ledger.delegation_of_token? {source : Pubkey} {t : TokenAccount}
    (ht : L.token? source = some t) :
    L.delegation source = t.delegate.map fun delegate => (delegate, t.delegatedAmount) := by
  unfold delegation
  rw [ht, Option.bind_some]

theorem Ledger.delegation_of_none {source : Pubkey} (ht : L.token? source = none) :
    L.delegation source = none := by
  unfold delegation
  rw [ht, Option.bind_none]

theorem Ledger.delegation_congr {source : Pubkey} (h : L'.token? source = L.token? source) :
    L'.delegation source = L.delegation source := by
  unfold delegation
  rw [h]

/-- `p'` is nothing, or no more than `p`. -/
def Shrinks (p p' : Option (Pubkey × UInt64)) : Prop :=
  ∀ delegate a, p' = some (delegate, a) → ∃ b, p = some (delegate, b) ∧ a ≤ b

theorem Shrinks.refl (p : Option (Pubkey × UInt64)) : Shrinks p p :=
  fun _ a h => ⟨a, h, UInt64.le_refl a⟩

theorem Shrinks.to_none (p : Option (Pubkey × UInt64)) : Shrinks p none := fun _ _ h => by cases h

/-- A step that leaves no token account where it writes. -/
theorem Shrinks.of_erased {source key : Pubkey} (hframe : ∀ k, k ≠ key → L' k = L k)
    (herased : L'.token? key = none) : Shrinks (L.delegation source) (L'.delegation source) := by
  by_cases hk : source = key
  · rw [hk, Ledger.delegation_of_none herased]
    exact .to_none _
  · rw [Ledger.delegation_congr (Ledger.token?_congr (hframe source hk))]
    exact .refl _

/-- What an instruction does to a delegation: it shrinks, unless the owner approves another. -/
theorem AccountStep.delegation {signers : List Pubkey} {op : TokenOp} {source : Pubkey}
    {t t' : TokenAccount} (h : AccountStep L signers op source t t') :
    Shrinks (t.delegate.map fun delegate => (delegate, t.delegatedAmount))
        (t'.delegate.map fun delegate => (delegate, t'.delegatedAmount)) ∨
      ∃ delegate amount, op.approved? source t.owner = some (delegate, amount) ∧
        t'.delegate = some delegate ∧ t'.delegatedAmount = amount := by
  cases h with
  | credit => exact .inl (.refl _)
  | ownerDebit => exact .inl (.refl _)
  | @delegateDebit delegate amount hdelegate hsigned hallowed hheld =>
    refine .inl fun d a ha => ?_
    have hle : t.delegatedAmount - amount ≤ t.delegatedAmount := by
      rw [UInt64.le_iff_toNat_le, UInt64.toNat_sub_of_le _ _ hallowed]
      omega
    by_cases hzero : t.delegatedAmount - amount = 0
    · simp [hzero] at ha
    · simp only [hzero, if_false, Option.map_some, Option.some.injEq, Prod.mk.injEq] at ha
      obtain ⟨rfl, rfl⟩ := ha
      exact ⟨t.delegatedAmount, by rw [hdelegate, Option.map_some], hle⟩
  | approve howner hop => exact .inr ⟨_, _, TokenOp.approved?_eq_some.mpr hop, rfl, rfl⟩
  | revoke => exact .inl (.to_none _)
  | setOwner => exact .inl (.to_none _)
  | setCloseAuthority => exact .inl (.refl _)
  | freeze => exact .inl (.refl _)

theorem KeyStep.delegation {signers : List Pubkey} {op : TokenOp} {source : Pubkey}
    (h : KeyStep L L' signers op source) :
    Shrinks (L.delegation source) (L'.delegation source) ∨
      ∃ t p, L.token? source = some t ∧ op.approved? source t.owner = some p ∧
        L'.delegation source = some p := by
  have hempty : L'.token? source = none →
      Shrinks (L.delegation source) (L'.delegation source) := by
    intro hnone
    rw [Ledger.delegation_of_none hnone]
    exact .to_none _
  cases h with
  | same h =>
    rw [Ledger.delegation_congr (Ledger.token?_congr h)]
    exact .inl (.refl _)
  | @account _ t t' ht h hstep =>
    have ht' : L'.token? source = some t' := by
      rw [Ledger.token?_eq_some, h]
      exact ⟨(Ledger.token?_eq_some.mp ht).1, rfl⟩
    rw [Ledger.delegation_of_token? ht, Ledger.delegation_of_token? ht']
    rcases hstep.delegation with hshrinks | ⟨delegate, amount, happroved, hdelegate, hamount⟩
    · exact .inl hshrinks
    · refine .inr ⟨t, (delegate, amount), ht, happroved, ?_⟩
      rw [hdelegate, hamount, Option.map_some]
  | mint _ _ h => exact .inl (hempty (by simp [Ledger.token?, h]))
  | createMint _ _ _ h => exact .inl (hempty (by simp [Ledger.token?, h]))
  | @createAccount _ t _ howner h hdelegate =>
    have ht : L'.token? source = some t := by
      rw [Ledger.token?_eq_some, h]
      exact ⟨howner, rfl⟩
    rw [Ledger.delegation_of_token? ht, hdelegate, Option.map_none]
    exact .inl (.to_none _)
  | close _ _ _ _ h => exact .inl (hempty (by simp [Ledger.token?, h]))

end Delegation

section Retention

variable {σ : Type} {L L' : Ledger σ}

/-- `source` still is the token account `t`, but for tokens it was sent and for its being frozen. -/
def Retained (L : Ledger σ) (source : Pubkey) (t : TokenAccount) : Prop :=
  ∃ amount state, L.token? source = some { t with amount, state } ∧ t.amount ≤ amount

theorem Retained.refl {source : Pubkey} {t : TokenAccount} (ht : L.token? source = some t) :
    Retained L source t :=
  ⟨t.amount, t.state, ht, UInt64.le_refl _⟩

/-- An instruction on the account that none of its authorities signs takes nothing from it. -/
theorem TokenOp.apply_retained {op : TokenOp} {signers : List Pubkey} {source : Pubkey}
    {t : TokenAccount} (hop : op.apply L signers = .ok L') (ht : L.token? source = some t)
    (howner : source ∈ op.writes → op.authority ≠ some t.owner)
    (hdelegate : ∀ d, t.delegate = some d → op.authority ≠ some d)
    (hclose : ∀ c, t.closeAuthority = some c → source ∈ op.writes → op.authority ≠ some c) :
    Retained L' source t := by
  have hkey := TokenOp.apply_cases (TokenOp.apply_authority hop) source
  by_cases hw : source ∈ op.writes
  · have hunsigned : Unsigned t op.authority.toList := by
      constructor
      · simpa using howner hw
      · simpa using hdelegate
      · intro c hc
        simpa using hclose c hc hw
    obtain ⟨amount, state, hL', hle, -⟩ := hkey.unsigned ht hunsigned
    refine ⟨amount, state, ?_, hle⟩
    rw [Ledger.token?_eq_some, hL']
    exact ⟨(Ledger.token?_eq_some.mp ht).1, rfl⟩
  · exact .refl ((Ledger.token?_congr (hkey.frame hw)).trans ht)

end Retention

section Approvals

variable {σ ev : Type}

/-- An approval of `source` by who owned it then. -/
def Event.approval? (source : Pubkey) : Event σ ev → Option (Pubkey × UInt64)
  | .token op _ before => (before.token? source).bind fun t => op.approved? source t.owner
  | _ => none

/-- The approvals of `source` in a log: the delegates and the amounts, oldest first. -/
def approvals (source : Pubkey) (log : List (Event σ ev)) : List (Pubkey × UInt64) :=
  log.filterMap (Event.approval? source)

private theorem approvals_append (source : Pubkey) (l l' : List (Event σ ev)) :
    approvals source (l ++ l') = approvals source l ++ approvals source l' :=
  List.filterMap_append

/-- The value of a delegation; more may be spent for no less. -/
structure Weight where
  of : Pubkey × UInt64 → ℕ
  mono : ∀ delegate a b, a ≤ b → of (delegate, a) ≤ of (delegate, b)

namespace Weight

/-- One for every delegation to `key`. -/
def count (key : Pubkey) : Weight where
  of p := if p.1 = key then 1 else 0
  mono _ _ _ _ := le_rfl

/-- The amount of a delegation to one of `keys`. -/
def amount (keys : Pubkey → Prop) [DecidablePred keys] : Weight where
  of p := if keys p.1 then p.2.toNat else 0
  mono delegate a b h := by
    by_cases hkey : keys delegate
    · simp only [hkey, if_true]
      exact UInt64.le_iff_toNat_le.mp h
    · simp [hkey]

variable (f : Weight)

/-- What a delegation is worth, if there is one. -/
def value (p : Option (Pubkey × UInt64)) : ℕ := (p.map f.of).getD 0

def standing (source : Pubkey) (w : World σ ev) : ℕ := f.value (w.ledger.delegation source)

def approved (source : Pubkey) (w : World σ ev) : ℕ := ((approvals source w.log).map f.of).sum

private theorem value_le_of_shrinks {p p' : Option (Pubkey × UInt64)} (h : Shrinks p p') :
    f.value p' ≤ f.value p := by
  cases p' with
  | none => exact Nat.zero_le _
  | some q =>
    obtain ⟨delegate, a⟩ := q
    obtain ⟨b, rfl, hle⟩ := h delegate a rfl
    exact f.mono delegate a b hle

theorem approved_append {source : Pubkey} {w w' : World σ ev} {es : List (Event σ ev)}
    (h : w'.log = w.log ++ es) :
    f.approved source w' = f.approved source w + ((approvals source es).map f.of).sum := by
  unfold approved
  rw [h, approvals_append, List.map_append, List.sum_append]

end Weight

/-- What happened from `w` to `w'`, oldest first. -/
def newEvents (w w' : World σ ev) : List (Event σ ev) := w'.log.drop w.log.length

theorem newEvents_eq {w w' : World σ ev} {es : List (Event σ ev)} (h : w'.log = w.log ++ es) :
    newEvents w w' = es := by
  unfold newEvents
  rw [h, List.drop_left]

/-- A Token instruction that may write to `source`, issued in the name of `key`. -/
def Event.IssuedOn (source key : Pubkey) : Event σ ev → Prop
  | .token op _ _ => source ∈ op.writes ∧ op.authority = some key
  | _ => False

instance (source key : Pubkey) (e : Event σ ev) : Decidable (e.IssuedOn source key) := by
  unfold Event.IssuedOn
  cases e <;> infer_instance

/-- Nothing among the events was issued on `source` in the name of `key`. -/
def Unissued (source key : Pubkey) (es : List (Event σ ev)) : Prop :=
  ∀ e ∈ es, ¬ e.IssuedOn source key

instance (source key : Pubkey) (es : List (Event σ ev)) : Decidable (Unissued source key es) :=
  inferInstanceAs (Decidable (∀ e ∈ es, ¬ e.IssuedOn source key))

theorem Unissued.mono {es es' : List (Event σ ev)} {source key : Pubkey}
    (h : Unissued source key es) (hsub : es' ⊆ es) : Unissued source key es' :=
  fun e he => h e (hsub he)

theorem Unissued.authority {es : List (Event σ ev)} {source key : Pubkey} {op : TokenOp}
    {signers : List Pubkey} {before : Ledger σ} (h : Unissued source key es)
    (hmem : Event.token op signers before ∈ es)
    (hw : source ∈ op.writes) : op.authority ≠ some key :=
  fun heq => h _ hmem ⟨hw, heq⟩

/-- Token instructions that took effect. -/
def Applied (es : List (Event σ ev)) : Prop :=
  ∀ op signers before, Event.token op signers before ∈ es →
    ∃ after, op.apply before signers = .ok after

theorem Applied.nil : Applied ([] : List (Event σ ev)) := fun _ _ _ h => by cases h

theorem Applied.append {es es' : List (Event σ ev)} (h : Applied es) (h' : Applied es') :
    Applied (es ++ es') := by
  intro op signers before hmem
  rcases List.mem_append.mp hmem with hmem | hmem
  · exact h op signers before hmem
  · exact h' op signers before hmem

theorem Applied.emitted (e : ev) : Applied [(Event.emitted e : Event σ ev)] := by
  intro op signers before hmem
  cases List.mem_singleton.mp hmem

/-- From `w` to `w'` whatever came to be delegated from `source` was approved, and the approvals
are in the log. -/
structure Backed (source : Pubkey) (w w' : World σ ev) : Prop where
  logged : ∃ es, w'.log = w.log ++ es ∧ Applied es
  backed : ∀ f : Weight, f.standing source w' + f.approved source w ≤
    f.standing source w + f.approved source w'

namespace Backed

variable {source : Pubkey} {w w' w'' : World σ ev}

theorem refl (w : World σ ev) : Backed source w w :=
  ⟨⟨[], by simp, .nil⟩, fun _ => le_rfl⟩

theorem trans (h : Backed source w w') (h' : Backed source w' w'') : Backed source w w'' := by
  obtain ⟨es, hes, happlied⟩ := h.logged
  obtain ⟨es', hes', happlied'⟩ := h'.logged
  constructor
  · exact ⟨es ++ es', by rw [hes', hes, List.append_assoc], happlied.append happlied'⟩
  · intro f
    have h₁ := h.backed f
    have h₂ := h'.backed f
    omega

theorem newEvents_append (h : Backed source w w') (h' : Backed source w' w'') :
    newEvents w w'' = newEvents w w' ++ newEvents w' w'' := by
  obtain ⟨es, hes, -⟩ := h.logged
  obtain ⟨es', hes', -⟩ := h'.logged
  have hall : w''.log = w.log ++ (es ++ es') := by rw [hes', hes, List.append_assoc]
  rw [newEvents_eq hes, newEvents_eq hes', newEvents_eq hall]

/-- Where an allowance appears that was not there, the owner approved it in between. -/
theorem approval {key : Pubkey} (h : Backed source w w') {amount : UInt64}
    (hnone : w.ledger.delegation source = none)
    (hsome : w'.ledger.delegation source = some (key, amount)) :
    ∃ op signers before t approvedAmount after,
      Event.token op signers before ∈ newEvents w w' ∧
      before.token? source = some t ∧ op.Approves source key t.owner approvedAmount ∧
      t.owner ∈ signers ∧ op.apply before signers = .ok after := by
  obtain ⟨es, hes, happlied⟩ := h.logged
  have hcount := h.backed (.count key)
  have hbefore : (Weight.count key).standing source w = 0 := by
    unfold Weight.standing
    rw [hnone]
    rfl
  have hafter : (Weight.count key).standing source w' = 1 := by
    unfold Weight.standing
    rw [hsome]
    exact if_pos rfl
  rw [hbefore, hafter, Weight.approved_append _ hes] at hcount
  have hpos : 0 < ((approvals source es).map (Weight.count key).of).sum := by omega
  obtain ⟨n, hn, hn'⟩ : ∃ n ∈ (approvals source es).map (Weight.count key).of, n ≠ 0 := by
    by_contra hall
    push Not at hall
    rw [List.sum_eq_zero hall] at hpos
    exact absurd hpos (lt_irrefl 0)
  obtain ⟨⟨d, approvedAmount⟩, hp, rfl⟩ := List.mem_map.mp hn
  have hd : d = key := by
    by_contra hne
    exact hn' (if_neg hne)
  obtain ⟨e, he, happroval⟩ := List.mem_filterMap.mp hp
  unfold Event.approval? at happroval
  split at happroval
  · next op signers before =>
    obtain ⟨t, ht, hop⟩ := Option.bind_eq_some_iff.mp happroval
    rw [TokenOp.approved?_eq_some, hd] at hop
    obtain ⟨after, happly⟩ := happlied op signers before he
    rw [newEvents_eq hes]
    exact ⟨op, signers, before, t, approvedAmount, after, he, ht, hop,
      TokenOp.apply_signed happly hop.authority, happly⟩
  · cases happroval

/-- A step that approves nothing and lets the delegation shrink. -/
theorem of_shrinks {es : List (Event σ ev)} (hlog : w'.log = w.log ++ es) (happlied : Applied es)
    (h : Shrinks (w.ledger.delegation source) (w'.ledger.delegation source)) :
    Backed source w w' := by
  refine ⟨⟨es, hlog, happlied⟩, fun f => ?_⟩
  have hvalue : f.standing source w' ≤ f.standing source w := f.value_le_of_shrinks h
  rw [f.approved_append hlog]
  omega

theorem of_unchanged {es : List (Event σ ev)} (hlog : w'.log = w.log ++ es) (happlied : Applied es)
    (h : w'.ledger.token? source = w.ledger.token? source) : Backed source w w' := by
  apply of_shrinks hlog happlied
  rw [Ledger.delegation_congr h]
  exact .refl _

theorem of_erased {key : Pubkey} (hlog : w'.log = w.log)
    (hframe : ∀ k, k ≠ key → w'.ledger k = w.ledger k) (herased : w'.ledger.token? key = none) :
    Backed source w w' :=
  of_shrinks (hlog.trans (List.append_nil _).symm) .nil (.of_erased hframe herased)

private theorem of_token {op : TokenOp} {signers : List Pubkey}
    (hop : op.apply w.ledger signers = .ok w'.ledger) 
    (hlog : w'.log = w.log ++ [.token op signers w.ledger]) :
    Backed source w w' := by
  have happlied : Applied [(Event.token op signers w.ledger : Event σ ev)] := by
    intro op' signers' before hmem
    cases List.mem_singleton.mp hmem
    exact ⟨w'.ledger, hop⟩
  rcases (TokenOp.apply_cases hop source).delegation with hshrinks | ⟨t, p, ht, happroved, hp⟩
  · exact of_shrinks hlog happlied hshrinks
  · refine ⟨⟨_, hlog, happlied⟩, fun f => ?_⟩
    have hnew : approvals source [(Event.token op signers w.ledger : Event σ ev)] = [p] := by
      simp [approvals, Event.approval?, ht, happroved]
    have hstanding : f.standing source w' = f.of p := by
      unfold Weight.standing
      rw [hp]
      rfl
    rw [f.approved_append hlog, hnew, hstanding]
    simp only [List.map_cons, List.map_nil, List.sum_cons, List.sum_nil]
    omega

end Backed

end Approvals

section Steps

variable {σ ev : Type} {source : Pubkey}

theorem tokenInvoke_backed {w w' : World σ ev} {caller : List AccountInfo}
    {pdaSigners : List Pubkey} {op : TokenOp} {authority : Option Pubkey} {u : Unit}
    (h : (tokenInvoke caller pdaSigners op authority).run w = (.ok u, w')) : Backed source w w' := by
  obtain ⟨-, hop, -, hlog⟩ := tokenInvoke_ok h
  exact .of_token hop hlog

variable [Crypto] {programId : Pubkey} {priv : Privileges} {w w' : World σ ev}

theorem Action.perform_backed {a : Action programId} (h : (a.perform priv).run w = (.ok (), w')) :
    Backed source w w' := by
  rcases Action.perform_ok h with
    ⟨program, key, newOwner, executable, bytes, -, -, hp, -, howner, -, rfl⟩ |
    ⟨op, signers, ledger, -, -, -, hop, rfl⟩
  · refine .of_erased rfl (fun k hk => Function.update_of_ne hk _ _) ?_
    simp [Ledger.token?]
  · exact .of_token hop rfl

theorem invokeSigned_backed {callee : Callee σ programId} {caller infos : List AccountInfo}
    {ix : Instruction} {pdaSigners : List Pubkey} {u : Unit}
    (h : (invokeSigned programId callee caller ix infos pdaSigners).run w = (.ok u, w')) :
    Backed source w w' := by
  obtain ⟨response, w₁, -, hall, -, -, hledger, -, hlog⟩ := invokeSigned_ok h
  have hactions : Backed source w w₁ :=
    performAll_rel Backed.refl Backed.trans (fun _ _ _ _ => Action.perform_backed) hall
  apply hactions.trans
  apply Backed.of_unchanged hlog
  · intro op signers before hmem
    cases List.mem_singleton.mp hmem
  · rw [hledger]

end Steps

end ProgrammableSolana.Solana
