import Nos3.Base.ReversePolish
import Nos3.Lc.Source.Process

/-!
# The validator and the evaluator agree

The expression trees of an equation have watchpoints as leaves. Their logic has
four values: FALSE absorbs AND, TRUE absorbs OR, and ERROR comes before STALE.
-/
namespace Nos3.Lc
open Base.ReversePolish

inductive Connective
  | and
  | or
  | xor

abbrev RPNSymbol := Symbol (Fin LC_MAX_WATCHPOINTS) Unit Connective

abbrev Expression := Expr (Fin LC_MAX_WATCHPOINTS) Unit Connective

def RPNItem.ofSymbol : RPNSymbol → RPNItem
  | .leaf number => .watchpoint number
  | .unary _ => .not
  | .binary .and => .and
  | .binary .or => .or
  | .binary .xor => .xor

/-- The first of an order of dominance that one of the operands has. -/
def dominant (order : List WatchResult) (rest : WatchResult) (a b : WatchResult) : WatchResult :=
  (order.find? fun value => a = value || b = value).getD rest

/-- A connective of truth values where ERROR, then STALE, dominate. -/
def strict (op : Bool → Bool → Bool) (a b : WatchResult) : WatchResult :=
  dominant [.error, .stale] (.ofBool (op (a = .isTrue) (b = .isTrue))) a b

/-- The four-valued logic over an assignment to the watchpoints. -/
def fourValued (watch : Fin LC_MAX_WATCHPOINTS → WatchResult) :
    Meaning (Fin LC_MAX_WATCHPOINTS) Unit Connective WatchResult where
  leaf := watch
  unary _ a := strict (fun x _ => !x) a a
  binary
    | .and => dominant [.isFalse, .error, .stale] .isTrue
    | .or => dominant [.isTrue, .error, .stale] .isFalse
    | .xor => strict Bool.xor

theorem rpnAnd_eq (a b : WatchResult) :
    rpnAnd a b = dominant [.isFalse, .error, .stale] .isTrue a b := by
  cases a <;> cases b <;> rfl

theorem rpnOr_eq (a b : WatchResult) :
    rpnOr a b = dominant [.isTrue, .error, .stale] .isFalse a b := by
  cases a <;> cases b <;> rfl

theorem rpnXor_eq (a b : WatchResult) : rpnXor a b = strict Bool.xor a b := by
  cases a <;> cases b <;> rfl

theorem rpnNot_eq (a : WatchResult) : rpnNot a = strict (fun x _ => !x) a a := by
  cases a <;> rfl

/-- A symbol with its operands on the stack acts as the logic says. -/
theorem rpnItem_of_act {watch : Fin LC_MAX_WATCHPOINTS → WatchResult} {symbol : RPNSymbol}
    {s : RPNState} {stack : List WatchResult}
    (hact : (fourValued watch).act symbol s.rpnStack = some stack)
    (hroom : s.rpnStack.length < LC_MAX_RPN_EQU_SIZE) :
    rpnItem watch (.ofSymbol symbol) s = some { s with rpnStack := stack } := by
  obtain ⟨operands, pointer, result, done, illegal, operand⟩ := s
  match symbol, operands with
  | .leaf number, operands =>
    cases hact
    exact if_pos hroom
  | .unary _, a :: operands =>
    cases hact
    refine (if_pos (Nat.lt_of_succ_lt hroom)).trans ?_
    rw [rpnNot_eq]
    rfl
  | .binary op, b :: a :: operands =>
    cases hact
    have hleft : operands.length < LC_MAX_RPN_EQU_SIZE :=
      Nat.lt_of_succ_lt (Nat.lt_of_succ_lt hroom)
    cases op with
    | and => exact (if_pos hleft).trans (by rw [rpnAnd_eq]; rfl)
    | or => exact (if_pos hleft).trans (by rw [rpnOr_eq]; rfl)
    | xor => exact (if_pos hleft).trans (by rw [rpnXor_eq]; rfl)
  | .unary _, [] => cases hact
  | .binary _, [] => cases hact
  | .binary _, [_] => cases hact

theorem RPNItem.ofSymbol_or (item : RPNItem) :
    (∃ symbol, item = .ofSymbol symbol) ∨ item = .equal ∨ item = .unknown := by
  cases item with
  | and => exact .inl ⟨.binary .and, rfl⟩
  | or => exact .inl ⟨.binary .or, rfl⟩
  | xor => exact .inl ⟨.binary .xor, rfl⟩
  | not => exact .inl ⟨.unary (), rfl⟩
  | watchpoint number => exact .inl ⟨.leaf number, rfl⟩
  | equal => exact .inr (.inl rfl)
  | unknown => exact .inr (.inr rfl)

theorem validateLoop_of_depth {symbol : RPNSymbol} {depth next index : Nat}
    (h : symbol.depth depth = some next) (item : Option RPNItem) (rest : List RPNItem) :
    validateLoop (.ofSymbol symbol :: rest) ⟨index, depth, item⟩ =
      validateLoop rest ⟨index + 1, next, some (.ofSymbol symbol)⟩ := by
  match symbol, depth with
  | .leaf _, depth =>
    cases h
    have hdepth : ¬ ((depth : Int) + 1 ≤ 0) := by omega
    simp only [RPNItem.ofSymbol, validateLoop, RPNItem.depthChange]
    exact if_neg hdepth
  | .unary _, depth + 1 =>
    cases h
    have hdepth : ¬ (((depth + 1 : Nat) : Int) + 0 ≤ 0) := by omega
    simp only [RPNItem.ofSymbol, validateLoop, RPNItem.depthChange]
    exact if_neg hdepth
  | .binary op, depth + 2 =>
    cases h
    have hdepth : ((depth + 2 : Nat) : Int) + -1 = (depth + 1 : Nat) := by omega
    cases op <;> simp only [RPNItem.ofSymbol, validateLoop, RPNItem.depthChange, hdepth] <;>
      exact if_neg (by omega)
  | .unary _, 0 => cases h
  | .binary _, 0 => cases h
  | .binary _, 1 => cases h

/-- A symbol that misses an operand ends the validator's loop. -/
theorem validateLoop_of_no_depth {symbol : RPNSymbol} {depth index : Nat}
    (h : symbol.depth depth = none) (item : Option RPNItem) (rest : List RPNItem) :
    (validateLoop (.ofSymbol symbol :: rest) ⟨index, depth, item⟩).accepted = false := by
  match symbol, depth with
  | .leaf _, _ => cases h
  | .unary _, _ + 1 => cases h
  | .binary _, _ + 2 => cases h
  | .unary _, 0 => rfl
  | .binary op, 0 => cases op <;> rfl
  | .binary op, 1 => cases op <;> rfl

/-- What the validator accepts behind a stack of trees makes it one tree. -/
theorem spell_of_accepted {items : List RPNItem} {index : Nat} {item : Option RPNItem}
    (trees : List Expression) (hitem : item ≠ some .equal)
    (h : (validateLoop items ⟨index, trees.length, item⟩).accepted = true) :
    ∃ (symbols : List RPNSymbol) (rest : List RPNItem) (e : Expression),
      items = symbols.map .ofSymbol ++ .equal :: rest ∧
      Expr.spellStack trees ++ symbols = e.spell := by
  induction items generalizing trees index item with
  | nil =>
    rw [validateLoop, RPNScan.accepted.eq_def] at h
    split at h
    · exact absurd (congrArg RPNScan.bufferItem ‹_›) hitem
    · cases h
  | cons head rest ih =>
    obtain ⟨symbol, rfl⟩ | rfl | rfl := head.ofSymbol_or
    · cases hdepth : symbol.depth trees.length with
      | none =>
        rw [validateLoop_of_no_depth hdepth] at h
        cases h
      | some depth =>
        obtain ⟨next, hact, rfl⟩ := Expr.tree.act_of_depth hdepth
        rw [validateLoop_of_depth hdepth] at h
        have hother : some (RPNItem.ofSymbol symbol) ≠ some .equal := by
          rcases symbol with number | op | (_ | _ | _) <;> nofun
        obtain ⟨symbols, tail, e, rfl, hspell⟩ := ih next hother h
        refine ⟨symbol :: symbols, tail, e, rfl, ?_⟩
        rw [← hspell, Expr.act_tree_spell hact, List.append_assoc]
        rfl
    · have hone : (trees.length : Int) = 1 := of_decide_eq_true h
      obtain ⟨e, rfl⟩ := List.length_eq_one_iff.mp (Int.ofNat_inj.mp hone)
      exact ⟨[], rest, e, rfl, by simp [Expr.spellStack]⟩
    · cases h

theorem act_length_le {watch : Fin LC_MAX_WATCHPOINTS → WatchResult} {symbol : RPNSymbol}
    {stack next : List WatchResult} (h : (fourValued watch).act symbol stack = some next) :
    next.length ≤ stack.length + 1 := by
  match symbol, stack with
  | .leaf _, _ => cases h; simp
  | .unary _, _ :: _ => cases h; simp
  | .binary _, _ :: _ :: _ => cases h; simp
  | .unary _, [] => cases h
  | .binary _, [] => cases h
  | .binary _, [_] => cases h

theorem rpnLoop_next {watch : Fin LC_MAX_WATCHPOINTS → WatchResult} {item : RPNItem}
    {rest : List RPNItem} {s next : RPNState}
    (hitem : rpnItem watch item { s with rpnEquationPtr := s.rpnEquationPtr + 1 } = some next)
    (hlive : next.live = true) (hrest : rest ≠ []) :
    rpnLoop watch (item :: rest) s = rpnLoop watch rest next := by
  rw [rpnLoop, hitem]
  exact (if_pos hlive).trans (if_neg hrest)

theorem rpnLoop_stop {watch : Fin LC_MAX_WATCHPOINTS → WatchResult} {item : RPNItem}
    {rest : List RPNItem} {s next : RPNState}
    (hitem : rpnItem watch item { s with rpnEquationPtr := s.rpnEquationPtr + 1 } = some next)
    (hlive : next.live = false) : rpnLoop watch (item :: rest) s = some next := by
  rw [rpnLoop, hitem]
  exact if_neg (by simp [hlive])

/-- Symbols that find their operands take the loop to the stack of the logic. -/
theorem rpnLoop_run {watch : Fin LC_MAX_WATCHPOINTS → WatchResult} {symbols : List RPNSymbol}
    {tail : List RPNItem} {s : RPNState} {stack : List WatchResult} (hlive : s.live = true)
    (htail : tail ≠ []) (hroom : s.rpnStack.length + symbols.length ≤ LC_MAX_RPN_EQU_SIZE)
    (hrun : (fourValued watch).run symbols s.rpnStack = some stack) :
    rpnLoop watch (symbols.map .ofSymbol ++ tail) s =
      rpnLoop watch tail
        { s with rpnStack := stack, rpnEquationPtr := s.rpnEquationPtr + symbols.length } := by
  induction symbols generalizing s with
  | nil =>
    cases hrun
    rfl
  | cons symbol symbols ih =>
    obtain ⟨middle, hact, hrest⟩ := Option.bind_eq_some_iff.mp hrun
    have hlen : middle.length ≤ s.rpnStack.length + 1 := act_length_le hact
    rw [List.length_cons] at hroom
    have hnext := rpnItem_of_act
      (s := { s with rpnEquationPtr := s.rpnEquationPtr + 1 }) hact (by simp only; omega)
    have hmore : symbols.map RPNItem.ofSymbol ++ tail ≠ [] := by simp [htail]
    rw [List.map_cons, List.cons_append, rpnLoop_next hnext hlive hmore]
    have hmiddle := ih
      (s := { s with rpnStack := middle, rpnEquationPtr := s.rpnEquationPtr + 1 }) hlive
      (by simp only; omega) hrest
    refine hmiddle.trans ?_
    simp only [List.length_cons, Nat.add_assoc, Nat.add_comm 1]

/-- An equation that spells a tree evaluates to the value of the tree. -/
theorem evaluateRPN_of_spell {equation : RPNEquation} {e : Expression} {rest : List RPNItem}
    (h : equation.items = e.spell.map .ofSymbol ++ .equal :: rest)
    (watch : Fin LC_MAX_WATCHPOINTS → WatchResult) :
    evaluateRPN equation watch = some ⟨.ofWatch (e.eval (fourValued watch)), none⟩ := by
  have hlen : equation.items.length = LC_MAX_RPN_EQU_SIZE := by
    rw [RPNEquation.items, List.length_map, equation.length_data]
  have hroom : 0 + e.spell.length ≤ LC_MAX_RPN_EQU_SIZE := by
    rw [h, List.length_append, List.length_map, List.length_cons] at hlen
    omega
  rw [evaluateRPN, h,
    rpnLoop_run (s := {}) rfl (by simp) hroom ((fourValued watch).run_spell e [])]
  cases e.eval (fourValued watch) <;> rfl

/-- TRUE or FALSE. -/
def WatchResult.definite (value : WatchResult) : Prop := value = .isTrue ∨ value = .isFalse

theorem WatchResult.definite_ofBool (b : Bool) : (WatchResult.ofBool b).definite := by
  cases b
  · exact .inr rfl
  · exact .inl rfl

/-- The logic stays within TRUE and FALSE. -/
theorem act_definite {watch : Fin LC_MAX_WATCHPOINTS → WatchResult} {symbol : RPNSymbol}
    {stack next : List WatchResult} (hwatch : ∀ number, (watch number).definite)
    (hstack : ∀ value ∈ stack, value.definite)
    (h : (fourValued watch).act symbol stack = some next) : ∀ value ∈ next, value.definite := by
  match symbol, stack with
  | .leaf number, _ =>
    cases h
    exact List.forall_mem_cons.mpr ⟨hwatch number, hstack⟩
  | .unary _, a :: stack =>
    cases h
    obtain ⟨ha, hrest⟩ := List.forall_mem_cons.mp hstack
    refine List.forall_mem_cons.mpr ⟨?_, hrest⟩
    rcases ha with rfl | rfl
    · exact .inr rfl
    · exact .inl rfl
  | .binary op, b :: a :: stack =>
    cases h
    obtain ⟨hb, htail⟩ := List.forall_mem_cons.mp hstack
    obtain ⟨ha, hrest⟩ := List.forall_mem_cons.mp htail
    refine List.forall_mem_cons.mpr ⟨?_, hrest⟩
    rcases ha with rfl | rfl <;> rcases hb with rfl | rfl <;> cases op <;>
      first | exact .inl rfl | exact .inr rfl
  | .unary _, [] => cases h
  | .binary _, [] => cases h
  | .binary _, [_] => cases h

/-- A symbol that misses an operand is reported, and still has its push. -/
theorem rpnItem_of_no_act {watch : Fin LC_MAX_WATCHPOINTS → WatchResult} {symbol : RPNSymbol}
    {s : RPNState} (hdepth : symbol.depth s.rpnStack.length = none) :
    ∃ next, rpnItem watch (.ofSymbol symbol) s = some next ∧ next.illegalRPN = true := by
  obtain ⟨operands, pointer, result, done, illegal, operand⟩ := s
  match symbol, operands with
  | .leaf _, _ => cases hdepth
  | .unary _, _ :: _ => cases hdepth
  | .binary _, _ :: _ :: _ => cases hdepth
  | .unary _, [] => exact ⟨_, rfl, rfl⟩
  | .binary op, [] => cases op <;> exact ⟨_, rfl, rfl⟩
  | .binary op, [_] => cases op <;> exact ⟨_, rfl, rfl⟩

theorem rpnEqual_illegal {s : RPNState} (hstack : ∀ value ∈ s.rpnStack, value.definite)
    (hone : s.rpnStack.length ≠ 1) : (rpnEqual s).illegalRPN = true := by
  obtain ⟨operands, pointer, result, done, illegal, operand⟩ := s
  match operands with
  | [] => rfl
  | [_] => exact absurd rfl hone
  | value :: _ :: _ =>
    rcases hstack value List.mem_cons_self with rfl | rfl <;> rfl

/-- Over TRUE and FALSE the loop reports what the validator rejects. -/
theorem rpnLoop_rejected {watch : Fin LC_MAX_WATCHPOINTS → WatchResult} {items : List RPNItem}
    {s : RPNState} {index : Nat} {item : Option RPNItem}
    (hwatch : ∀ number, (watch number).definite) (hstack : ∀ value ∈ s.rpnStack, value.definite)
    (hlive : s.live = true) (hitems : items ≠ [])
    (hroom : s.rpnStack.length + items.length ≤ LC_MAX_RPN_EQU_SIZE)
    (h : (validateLoop items ⟨index, s.rpnStack.length, item⟩).accepted = false) :
    ∃ final, rpnLoop watch items s = some final ∧ final.illegalRPN = true := by
  induction items generalizing s index item with
  | nil => exact absurd rfl hitems
  | cons head rest ih =>
    rw [List.length_cons] at hroom
    have hstop : ∀ {next}, next.illegalRPN = true →
        rpnItem watch head { s with rpnEquationPtr := s.rpnEquationPtr + 1 } = some next →
        ∃ final, rpnLoop watch (head :: rest) s = some final ∧ final.illegalRPN = true :=
      fun hillegal hitem => ⟨_, rpnLoop_stop hitem (by simp [RPNState.live, hillegal]), hillegal⟩
    obtain ⟨symbol, rfl⟩ | rfl | rfl := head.ofSymbol_or
    · cases hdepth : symbol.depth s.rpnStack.length with
      | none =>
        obtain ⟨next, hitem, hillegal⟩ : ∃ next,
            rpnItem watch (.ofSymbol symbol) { s with rpnEquationPtr := s.rpnEquationPtr + 1 } =
              some next ∧ next.illegalRPN = true :=
          rpnItem_of_no_act hdepth
        exact hstop hillegal hitem
      | some depth =>
        obtain ⟨next, hact, rfl⟩ := (fourValued watch).act_of_depth hdepth
        have hlen := act_length_le hact
        have hitem := rpnItem_of_act
          (s := { s with rpnEquationPtr := s.rpnEquationPtr + 1 }) hact (by simp only; omega)
        rw [validateLoop_of_depth hdepth] at h
        by_cases hrest : rest = []
        · rw [rpnLoop, hitem]
          exact ⟨_, (if_pos hlive).trans (if_pos hrest), rfl⟩
        · rw [rpnLoop_next hitem hlive hrest]
          exact ih (act_definite hwatch hstack hact) hlive hrest (by simp only; omega) h
    · have hone : s.rpnStack.length ≠ 1 := by
        intro hone
        have haccepted : decide ((s.rpnStack.length : Int) = 1) = false := h
        rw [hone] at haccepted
        cases haccepted
      have hillegal := rpnEqual_illegal
        (s := { s with rpnEquationPtr := s.rpnEquationPtr + 1 }) hstack hone
      exact hstop hillegal rfl
    · exact hstop rfl rfl

theorem evaluateRPN_of_rejected {equation : RPNEquation} {error : RPNError}
    (h : validateRPN equation = .error error) {watch : Fin LC_MAX_WATCHPOINTS → WatchResult}
    (hwatch : ∀ number, (watch number).definite) :
    ∃ report, evaluateRPN equation watch = some ⟨.error, some report⟩ := by
  have hlen : equation.items.length = LC_MAX_RPN_EQU_SIZE := by
    rw [RPNEquation.items, List.length_map, equation.length_data]
  have hitems : equation.items ≠ [] := by
    intro hnil
    rw [hnil] at hlen
    cases hlen
  have hrejected : (validateLoop equation.items ⟨0, 0, none⟩).accepted = false := by
    rw [validateRPN] at h
    split at h
    · cases h
    · exact eq_false_of_ne_true ‹_›
  have hroom : 0 + equation.items.length ≤ LC_MAX_RPN_EQU_SIZE :=
    Nat.le_of_eq ((Nat.zero_add _).trans hlen)
  obtain ⟨final, hloop, hillegal⟩ :=
    rpnLoop_rejected (s := {}) hwatch nofun rfl hitems hroom hrejected
  rw [evaluateRPN, hloop, Option.map_some, rpnOutcome, if_pos hillegal]
  exact ⟨_, rfl⟩

theorem spell_of_validateRPN {equation : RPNEquation} (h : validateRPN equation = .ok ()) :
    ∃ (e : Expression) (rest : List RPNItem),
      equation.items = e.spell.map .ofSymbol ++ .equal :: rest := by
  have haccepted : (validateLoop equation.items ⟨0, 0, none⟩).accepted = true := by
    rw [validateRPN] at h
    split at h
    · assumption
    · cases h
  have hnone : (none : Option RPNItem) ≠ some .equal := nofun
  obtain ⟨symbols, rest, e, hitems, hspell⟩ := spell_of_accepted [] hnone haccepted
  have hsymbols : symbols = e.spell := hspell
  exact ⟨e, rest, hsymbols ▸ hitems⟩

/-- The validator accepts an equation exactly when its evaluation over TRUE and
FALSE is never illegal, and exactly when the equation spells a tree, to whose
value in the four-valued logic it then evaluates. `LC_EvaluateRPN` gives a
result only while its stack stays within bounds, and an empty pop is reported. -/
theorem rpn_agreement (equation : RPNEquation) :
    (validateRPN equation = .ok () ↔ ∀ truth : Fin LC_MAX_WATCHPOINTS → Bool,
      ∃ result, evaluateRPN equation (fun number => .ofBool (truth number)) =
        some ⟨result, none⟩) ∧
    (validateRPN equation = .ok () → ∃ (e : Expression) (rest : List RPNItem),
      equation.items = e.spell.map .ofSymbol ++ .equal :: rest) ∧
    ∀ (e : Expression) (rest : List RPNItem),
      equation.items = e.spell.map .ofSymbol ++ .equal :: rest →
      ∀ watch, evaluateRPN equation watch =
        some ⟨.ofWatch (e.eval (fourValued watch)), none⟩ := by
  refine ⟨⟨fun h truth => ?_, fun h => ?_⟩, spell_of_validateRPN,
    fun e rest hitems watch => evaluateRPN_of_spell hitems watch⟩
  · obtain ⟨e, rest, hitems⟩ := spell_of_validateRPN h
    exact ⟨_, evaluateRPN_of_spell hitems _⟩
  · cases hvalid : validateRPN equation with
    | ok _ => rfl
    | error error =>
      obtain ⟨result, hlegal⟩ := h fun _ => true
      have hdefinite : ∀ number : Fin LC_MAX_WATCHPOINTS,
          ((fun _ => .ofBool true) number : WatchResult).definite :=
        fun _ => WatchResult.definite_ofBool _
      obtain ⟨report, hillegal⟩ := evaluateRPN_of_rejected hvalid hdefinite
      rw [hlegal] at hillegal
      cases hillegal

end Nos3.Lc
