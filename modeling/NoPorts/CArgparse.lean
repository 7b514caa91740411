import NoPorts.PermitOpenAgreement

/-! The vendored `argparse`: a command line read into what the options point to. -/
namespace NoPorts.CArgs
open Lib CDaemon

/-- How the process ends when the command line is not read to its end. -/
inductive Exit where
  | success
  | failure
  deriving DecidableEq, Repr

/-! ### strtol with base 0 -/

def digitValue (c : Char) : ℕ :=
  if c.isDigit then c.toNat - 48
  else if 'a' ≤ c ∧ c ≤ 'z' then c.toNat - 87
  else if 'A' ≤ c ∧ c ≤ 'Z' then c.toNat - 55
  else 36

def isDigitOf (base : ℕ) (c : Char) : Bool := digitValue c < base

/-- The base a text without a sign is in, and the text that its digits are taken from. -/
def baseOf : List Char → ℕ × List Char
  | '0' :: x :: d :: rest =>
    if (x = 'x' ∨ x = 'X') ∧ isDigitOf 16 d then (16, d :: rest) else (8, '0' :: x :: d :: rest)
  | '0' :: rest => (8, '0' :: rest)
  | s => (10, s)

structure Strtol where
  value : ℤ
  /-- `endptr` -/
  rest : List Char
  erange : Bool
  deriving DecidableEq, Repr

/-- `strtol(s, &rest, 0)` where a `long` has 64 bits. -/
def strtol0 (s : List Char) : Strtol :=
  let text := s.dropWhile isAsciiSpace
  let negative := text.head? == some '-'
  let unsigned := if negative then text.drop 1 else dropPrefix ['+'] text
  let (base, digits) := baseOf unsigned
  let num := digits.takeWhile (isDigitOf base)
  let value := num.foldl (fun n c => base * n + digitValue c) 0
  -- without a digit nothing is taken, not even the spaces
  if num = [] then ⟨0, s, false⟩
  else if negative then
    ⟨if longRange < value then -(longRange : ℤ) else -(value : ℤ), digits.dropWhile (isDigitOf base),
      longRange < value⟩
  else
    ⟨if longRange ≤ value then (longRange : ℤ) - 1 else value, digits.dropWhile (isDigitOf base),
      longRange ≤ value⟩

/-- The conversion of a `long` to `int`. -/
def toInt (n : ℤ) : ℤ := (n + 2147483648) % 4294967296 - 2147483648

/-! ### The parser -/

/-- An option's type with what storing through its `value` does. -/
inductive Target (σ : Type*) where
  | boolean (store : Bool → σ → σ)
  | string (store : List Char → σ → σ)
  | integer (store : ℤ → σ → σ)
  /-- A boolean that points to nothing, with `argparse_help_cb`. -/
  | help

def Target.isBoolean {σ : Type*} : Target σ → Bool
  | .boolean _ | .help => true
  | .string _ | .integer _ => false

structure ArgparseOption (σ : Type*) where
  target : Target σ
  shortName : Option Char
  longName : List Char
  /-- `OPT_NONEG` -/
  noneg : Bool := false

/-- `struct argparse`, with what the options point to; `argv` is what follows the argument at hand. -/
structure Argparse (σ : Type*) where
  argv : List (List Char)
  /-- What is not an option, copied verbatim. -/
  out : List (List Char)
  optvalue : Option (List Char)
  values : σ

variable {σ : Type*}

/-- The value an option requires: what stands in its own argument, or the next one. -/
def nextValue (self : Argparse σ) : Except Exit (List Char × Argparse σ) :=
  match self.optvalue, self.argv with
  | some value, _ => .ok (value, { self with optvalue := none })
  | none, value :: argv => .ok (value, { self with argv := argv })
  | none, [] => .error .failure

def getvalue (opt : ArgparseOption σ) (unset : Bool) (self : Argparse σ) :
    Except Exit (Argparse σ) :=
  match opt.target with
  -- a value written after a boolean stays for the next option that takes one
  | .boolean store => .ok { self with values := store (!unset) self.values }
  | .string store => do
    let (value, self) ← nextValue self
    return { self with values := store value self.values }
  | .integer store => do
    let (value, self) ← nextValue self
    let number := strtol0 value
    if number.erange ∨ number.rest ≠ [] then .error .failure
    else return { self with values := store (toInt number.value) self.values }
  | .help => .error .success

/-- `argparse_short_opt`, as long as there are characters left of the argument. -/
def shortOpts (options : List (ArgparseOption σ)) :
    List Char → Argparse σ → Except Exit (Argparse σ)
  | [], self => .ok self
  | c :: cs, self =>
    match options.find? (·.shortName == some c) with
    | none => .error .failure
    | some opt => do
      let self ← getvalue opt false { self with optvalue := if cs = [] then none else some cs }
      if self.optvalue.isSome then shortOpts options cs self else return self

/-- What an option finds in the text after `--`: whether it is negated, and what stands after `=`. -/
def longMatch (name : List Char) (opt : ArgparseOption σ) : Option (Bool × Option (List Char)) :=
  let found (unset : Bool) : List Char → Option (Bool × Option (List Char))
    | [] => some (unset, none)
    | '=' :: value => some (unset, some value)
    | _ => none
  match stripPrefix? opt.longName name with
  | some rest => found false rest
  | none =>
    if opt.noneg ∨ ¬opt.target.isBoolean then none
    else
      ((stripPrefix? ['n', 'o', '-'] name).bind (stripPrefix? opt.longName)).bind (found true)

def longOpt (options : List (ArgparseOption σ)) (name : List Char) (self : Argparse σ) :
    Except Exit (Argparse σ) :=
  match options.findSome? fun opt => (longMatch name opt).map (opt, ·) with
  | none => .error .failure
  | some (opt, unset, value) =>
    getvalue opt unset { self with optvalue := value.orElse fun _ => self.optvalue }

/-- One turn of the loop for `arg`; none once `--` has ended it. -/
def turn (options : List (ArgparseOption σ)) (arg : List Char) (self : Argparse σ) :
    Except Exit (Option (Argparse σ)) :=
  match arg with
  | '-' :: c :: cs =>
    if c ≠ '-' then some <$> shortOpts options (c :: cs) self
    else if cs = [] then .ok none
    else some <$> longOpt options cs self
  | _ => .ok (some { self with out := self.out ++ [arg] })

def loop (options : List (ArgparseOption σ)) :
    ℕ → Argparse σ → Except Exit (List (List Char) × σ)
  | 0, self => .ok (self.out ++ self.argv, self.values)
  | fuel + 1, self =>
    match self.argv with
    | [] => .ok (self.out, self.values)
    | arg :: argv =>
      match turn options arg { self with argv := argv } with
      | .error exit => .error exit
      | .ok none => .ok (self.out ++ argv, self.values)
      | .ok (some self) => loop options fuel self

/-- `argparse_parse`, from the state it is in; every turn takes an argument. -/
def parse (options : List (ArgparseOption σ)) (self : Argparse σ) :
    Except Exit (List (List Char) × σ) :=
  loop options self.argv.length self

/-- `argparse_init` and `argparse_parse`, for the arguments after the program's name. -/
def argparseParse (options : List (ArgparseOption σ)) (argv : List (List Char)) (values : σ) :
    Except Exit (List (List Char) × σ) :=
  parse options ⟨argv, [], none, values⟩

/-! ### What a turn takes -/

theorem nextValue_argv {self : Argparse σ} {r : List Char × Argparse σ}
    (h : nextValue self = .ok r) : r.2.argv.length ≤ self.argv.length := by
  unfold nextValue at h
  split at h
  · cases h
    exact le_rfl
  · rename_i hargv
    cases h
    rw [hargv, List.length_cons]
    exact Nat.le_succ _
  · cases h

theorem getvalue_argv {opt : ArgparseOption σ} {unset : Bool} {self self' : Argparse σ}
    (h : getvalue opt unset self = .ok self') : self'.argv.length ≤ self.argv.length := by
  unfold getvalue at h
  split at h
  · cases h
    exact le_rfl
  · obtain ⟨⟨value, next⟩, hr, h⟩ := bind_eq_ok.mp h
    cases h
    exact nextValue_argv hr
  · obtain ⟨⟨value, next⟩, hr, h⟩ := bind_eq_ok.mp h
    dsimp only at h
    split at h
    · cases h
    · cases h
      exact nextValue_argv hr
  · cases h

theorem shortOpts_argv {options : List (ArgparseOption σ)} {cs : List Char}
    {self self' : Argparse σ} (h : shortOpts options cs self = .ok self') :
    self'.argv.length ≤ self.argv.length := by
  induction cs generalizing self with
  | nil =>
    cases h
    exact le_rfl
  | cons c cs ih =>
    simp only [shortOpts] at h
    split at h
    · cases h
    · obtain ⟨mid, hmid, h⟩ := bind_eq_ok.mp h
      have hlen := getvalue_argv hmid
      split at h
      · exact (ih h).trans hlen
      · cases h
        exact hlen

theorem longOpt_argv {options : List (ArgparseOption σ)} {name : List Char}
    {self self' : Argparse σ} (h : longOpt options name self = .ok self') :
    self'.argv.length ≤ self.argv.length := by
  unfold longOpt at h
  split at h
  · cases h
  · have hlen := getvalue_argv h
    exact hlen

theorem turn_argv {options : List (ArgparseOption σ)} {arg : List Char} {self self' : Argparse σ}
    (h : turn options arg self = .ok (some self')) : self'.argv.length ≤ self.argv.length := by
  unfold turn at h
  split at h
  · split at h
    · obtain ⟨mid, hmid, hmid'⟩ := map_eq_ok.mp h
      cases hmid'
      exact shortOpts_argv hmid
    · split at h
      · cases h
      · obtain ⟨mid, hmid, hmid'⟩ := map_eq_ok.mp h
        cases hmid'
        exact longOpt_argv hmid
  · cases h
    exact le_rfl

/-- The arguments that are left bound the turns that are left. -/
theorem loop_enough (options : List (ArgparseOption σ)) {fuel : ℕ} {self : Argparse σ}
    (h : self.argv.length ≤ fuel) : loop options fuel self = parse options self := by
  -- any two amounts of fuel that are enough lead to the same end
  have hsame : ∀ (n m : ℕ) (self : Argparse σ), self.argv.length ≤ n → self.argv.length ≤ m →
      loop options n self = loop options m self := by
    intro n
    induction n with
    | zero =>
      intro m self hn _
      have hnil : self.argv = [] := by
        apply List.eq_nil_of_length_eq_zero
        omega
      cases m with
      | zero => rfl
      | succ m => simp only [loop, hnil, List.append_nil]
    | succ n ih =>
      intro m self hn hm
      cases m with
      | zero =>
        have hnil : self.argv = [] := by
          apply List.eq_nil_of_length_eq_zero
          omega
        simp only [loop, hnil, List.append_nil]
      | succ m =>
        cases hargv : self.argv with
        | nil => simp only [loop, hargv]
        | cons arg argv =>
          rw [hargv, List.length_cons] at hn hm
          simp only [loop, hargv]
          cases hturn : turn options arg { self with argv := argv } with
          | error exit => rfl
          | ok next =>
            cases next with
            | none => rfl
            | some self' =>
              have hlen := turn_argv hturn
              apply ih
              · change self'.argv.length ≤ argv.length at hlen
                omega
              · change self'.argv.length ≤ argv.length at hlen
                omega
  exact hsame _ _ _ h le_rfl

@[simp] theorem parse_nil (options : List (ArgparseOption σ)) (out : List (List Char))
    (optvalue : Option (List Char)) (values : σ) :
    parse options ⟨[], out, optvalue, values⟩ = .ok (out, values) := by
  simp only [parse, List.length_nil, loop, List.append_nil]

/-- A turn that goes on leaves what is left to be parsed. -/
theorem parse_cons {options : List (ArgparseOption σ)} {arg : List Char}
    {argv out : List (List Char)} {optvalue : Option (List Char)} {values : σ}
    {self : Argparse σ} (h : turn options arg ⟨argv, out, optvalue, values⟩ = .ok (some self)) :
    parse options ⟨arg :: argv, out, optvalue, values⟩ = parse options self := by
  have hlen := turn_argv h
  rw [parse, List.length_cons, loop]
  simp only [h]
  exact loop_enough options hlen

/-! ### Arguments that are read as they are written -/

/-- Whatever follows, `argv` does to the values what `f` does, and leaves nothing over. -/
def Reads (options : List (ArgparseOption σ)) (argv : List (List Char)) (f : σ → σ) : Prop :=
  ∀ (rest out : List (List Char)) (values : σ),
    parse options ⟨argv ++ rest, out, none, values⟩ = parse options ⟨rest, out, none, f values⟩

theorem Reads.nil (options : List (ArgparseOption σ)) : Reads options [] id :=
  fun _ _ _ => rfl

theorem Reads.append {options : List (ArgparseOption σ)} {argv argv' : List (List Char)}
    {f g : σ → σ} (h : Reads options argv f) (h' : Reads options argv' g) :
    Reads options (argv ++ argv') (g ∘ f) := by
  intro rest out values
  calc parse options ⟨argv ++ argv' ++ rest, out, none, values⟩
      = parse options ⟨argv ++ (argv' ++ rest), out, none, values⟩ := by rw [List.append_assoc]
    _ = parse options ⟨argv' ++ rest, out, none, f values⟩ := h _ _ _
    _ = parse options ⟨rest, out, none, (g ∘ f) values⟩ := h' _ _ _

theorem Reads.congr {options : List (ArgparseOption σ)} {argv argv' : List (List Char)}
    {f f' : σ → σ} (h : Reads options argv f) (hargv : argv' = argv) (hf : f' = f) :
    Reads options argv' f' := by
  rw [hargv, hf]
  exact h

theorem Reads.ite {options : List (ArgparseOption σ)} {argv argv' : List (List Char)}
    {f g : σ → σ} (c : Prop) [Decidable c] (h : Reads options argv f)
    (h' : Reads options argv' g) :
    Reads options (if c then argv else argv') (if c then f else g) := by
  split
  · exact h
  · exact h'

theorem Reads.argparseParse {options : List (ArgparseOption σ)} {argv : List (List Char)}
    {f : σ → σ} (h : Reads options argv f) (values : σ) :
    argparseParse options argv values = .ok ([], f values) := by
  have hparse := h [] [] values
  rw [List.append_nil] at hparse
  rw [CArgs.argparseParse, hparse, parse_nil]

/-- The option that the text after `--` names, without a value behind `=`. -/
def Names (options : List (ArgparseOption σ)) (name : List Char) (opt : ArgparseOption σ) : Prop :=
  name ≠ [] ∧
    (options.findSome? fun opt => (longMatch name opt).map (opt, ·)) = some (opt, false, none)

theorem turn_long {options : List (ArgparseOption σ)} {name : List Char} {opt : ArgparseOption σ}
    (h : Names options name opt) (argv out : List (List Char)) (values : σ) :
    turn options ('-' :: '-' :: name) ⟨argv, out, none, values⟩ =
      some <$> getvalue opt false ⟨argv, out, none, values⟩ := by
  obtain ⟨hne, hfind⟩ := h
  simp only [turn, ne_eq, not_true_eq_false, if_false, hne, longOpt, hfind, Option.orElse_eq_or,
    Option.none_or]

theorem Reads.boolean {options : List (ArgparseOption σ)} {name : List Char}
    {opt : ArgparseOption σ} {store : Bool → σ → σ} (h : Names options name opt)
    (hopt : opt.target = .boolean store) : Reads options ['-' :: '-' :: name] (store true) := by
  intro rest out values
  apply parse_cons
  change turn options _ ⟨rest, out, none, values⟩ = _
  rw [turn_long h, getvalue, hopt]
  rfl

/-- The value is the next argument, whatever that looks like. -/
theorem Reads.string {options : List (ArgparseOption σ)} {name : List Char}
    {opt : ArgparseOption σ} {store : List Char → σ → σ} (h : Names options name opt)
    (hopt : opt.target = .string store) (value : List Char) :
    Reads options ['-' :: '-' :: name, value] (store value) := by
  intro rest out values
  apply parse_cons
  change turn options _ ⟨value :: rest, out, none, values⟩ = _
  rw [turn_long h, getvalue, hopt]
  rfl

/-- A text that `strtol` reads to its end as a number that an `int` holds. -/
def ReadsInt (value : List Char) (n : ℤ) : Prop := strtol0 value = ⟨n, [], false⟩ ∧ toInt n = n

theorem Reads.integer {options : List (ArgparseOption σ)} {name value : List Char}
    {opt : ArgparseOption σ} {store : ℤ → σ → σ} {n : ℤ} (h : Names options name opt)
    (hopt : opt.target = .integer store) (hn : ReadsInt value n) :
    Reads options ['-' :: '-' :: name, value] (store n) := by
  obtain ⟨hvalue, hint⟩ := hn
  intro rest out values
  apply parse_cons
  change turn options _ ⟨value :: rest, out, none, values⟩ = _
  rw [turn_long h, getvalue, hopt]
  simp only [nextValue, ok_bind, hvalue, Bool.false_eq_true, ne_eq, not_true_eq_false, or_self,
    if_false, hint]
  rfl

theorem turn_short {options : List (ArgparseOption σ)} {c : Char} {opt : ArgparseOption σ}
    (hc : c ≠ '-') (h : (options.find? (·.shortName == some c)) = some opt)
    {argv out : List (List Char)} {values : σ} {self : Argparse σ}
    (hself : getvalue opt false ⟨argv, out, none, values⟩ = .ok self) (hnone : self.optvalue = none) :
    turn options ['-', c] ⟨argv, out, none, values⟩ = .ok (some self) := by
  simp only [turn, ne_eq, hc, not_false_eq_true, if_true, shortOpts, h, hself, ok_bind, hnone,
    Option.isSome_none, Bool.false_eq_true, if_false]
  rfl

theorem Reads.shortString {options : List (ArgparseOption σ)} {c : Char}
    {opt : ArgparseOption σ} {store : List Char → σ → σ} (hc : c ≠ '-')
    (h : (options.find? (·.shortName == some c)) = some opt) (hopt : opt.target = .string store)
    (value : List Char) : Reads options [['-', c], value] (store value) := by
  intro rest out values
  apply parse_cons
  apply turn_short hc h
  · change getvalue opt false ⟨value :: rest, out, none, values⟩ = _
    rw [getvalue, hopt]
    rfl
  · rfl

theorem Reads.shortInteger {options : List (ArgparseOption σ)} {c : Char} {value : List Char}
    {opt : ArgparseOption σ} {store : ℤ → σ → σ} {n : ℤ} (hc : c ≠ '-')
    (h : (options.find? (·.shortName == some c)) = some opt) (hopt : opt.target = .integer store)
    (hn : ReadsInt value n) : Reads options [['-', c], value] (store n) := by
  obtain ⟨hvalue, hint⟩ := hn
  intro rest out values
  apply parse_cons
  apply turn_short hc h
  · change getvalue opt false ⟨value :: rest, out, none, values⟩ = _
    rw [getvalue, hopt]
    simp only [nextValue, ok_bind, hvalue, Bool.false_eq_true, ne_eq, not_true_eq_false, or_self,
      if_false, hint]
    rfl
  · rfl

/-! ### The numbers printf writes -/

theorem digitValue_of_isDigit {c : Char} (h : c.isDigit = true) : digitValue c = c.toNat - 48 := by
  rw [digitValue, if_pos h]

/-- A decimal number that is not 0 does not start with the digit that marks another base. -/
theorem toString_head_ne_zero {n : ℕ} (hn : n ≠ 0) (rest : List Char) :
    (toString n).toList ≠ '0' :: rest := by
  intro h
  have hvalue := foldl_toString n
  have hdigits := isDigit_of_mem_toString n
  -- the digits behind the 0 are enough for the number, so there are too many
  have hbound : ∀ (ds : List Char) (k : ℕ), (∀ c ∈ ds, c.isDigit = true) →
      ds.foldl (fun n c => 10 * n + (c.toNat - 48)) k < (k + 1) * 10 ^ ds.length := by
    intro ds
    induction ds with
    | nil =>
      intro k _
      rw [List.foldl_nil, List.length_nil, Nat.pow_zero]
      omega
    | cons d ds ih =>
      intro k hds
      have hd : d.toNat - 48 ≤ 9 := by
        have hdig := hds d List.mem_cons_self
        simp only [Char.isDigit, ge_iff_le, Bool.and_eq_true, decide_eq_true_eq] at hdig
        have hle : d.val.toNat ≤ 57 := UInt32.le_iff_toNat_le.mp hdig.2
        change d.val.toNat - 48 ≤ 9
        omega
      have hlt := ih (10 * k + (d.toNat - 48)) fun c hc => hds c (List.mem_cons_of_mem d hc)
      rw [List.foldl_cons, List.length_cons, Nat.pow_succ]
      calc _ < (10 * k + (d.toNat - 48) + 1) * 10 ^ ds.length := hlt
        _ ≤ (10 * (k + 1)) * 10 ^ ds.length := by
          apply Nat.mul_le_mul_right
          omega
        _ = (k + 1) * (10 ^ ds.length * 10) := by
          rw [Nat.mul_comm 10 (k + 1), Nat.mul_assoc, Nat.mul_comm 10]
  rw [h] at hvalue hdigits
  have hsmall := hbound rest 0 fun c hc => hdigits c (List.mem_cons_of_mem '0' hc)
  have hzero : ('0' : Char).toNat - 48 = 0 := by decide
  rw [List.foldl_cons, hzero] at hvalue
  rw [Nat.mul_zero, Nat.add_zero] at hvalue
  rw [hvalue, Nat.zero_add, Nat.one_mul] at hsmall
  cases rest with
  | nil =>
    rw [List.length_nil, Nat.pow_zero] at hsmall
    omega
  | cons d ds =>
    have hlen := (Nat.length_toDigits_le_iff (b := 10) (k := (d :: ds).length) (n := n)
      (by decide) (by simp)).mpr hsmall
    rw [← toString_toList, h, List.length_cons] at hlen
    omega

theorem baseOf_toString {n : ℕ} (hn : n ≠ 0) :
    baseOf (toString n).toList = (10, (toString n).toList) := by
  have hhead := toString_head_ne_zero hn
  generalize (toString n).toList = s at hhead
  unfold baseOf
  split
  · exact absurd rfl (hhead _)
  · exact absurd rfl (hhead _)
  · rfl

/-- What `%u` or `%d` writes is read as the number it was, in whatever base it looks like. -/
theorem readsInt_toString {n : ℕ} (h : n < 2147483648) : ReadsInt (toString n).toList n := by
  have hint : toInt (n : ℤ) = n := by
    rw [toInt]
    omega
  refine ⟨?_, hint⟩
  by_cases hn : n = 0
  · subst hn
    decide
  · obtain ⟨hspace, hminus, hplus, -, -⟩ := PermitOpen.toString_scan n
    have hbase := baseOf_toString hn
    have hvalue := foldl_toString n
    have hne := toString_ne_nil n
    have hdigits := isDigit_of_mem_toString n
    have hlong : ¬longRange ≤ n := by
      have : (2147483648 : ℕ) < longRange := by decide
      omega
    generalize (toString n).toList = s at hspace hminus hplus hbase hvalue hne hdigits
    have hten : ∀ c ∈ s, isDigitOf 10 c = true ∧ digitValue c = c.toNat - 48 := by
      intro c hc
      have hd := hdigits c hc
      have hval := digitValue_of_isDigit hd
      simp only [Char.isDigit, ge_iff_le, Bool.and_eq_true, decide_eq_true_eq] at hd
      have hle : c.val.toNat ≤ 57 := UInt32.le_iff_toNat_le.mp hd.2
      refine ⟨?_, hval⟩
      rw [isDigitOf, hval, decide_eq_true_eq]
      change c.val.toNat - 48 < 10
      omega
    have htake : s.takeWhile (isDigitOf 10) = s :=
      List.takeWhile_eq_self_iff.mpr fun c hc => (hten c hc).1
    have hdrop : s.dropWhile (isDigitOf 10) = [] :=
      List.dropWhile_eq_nil_iff.mpr fun c hc => (hten c hc).1
    have hfold : s.foldl (fun n c => 10 * n + digitValue c) 0 = n := by
      rw [← hvalue]
      apply List.foldl_ext
      intro k c hc
      rw [(hten c hc).2]
    simp only [strtol0, hspace, hminus, hplus, hbase, htake, hdrop, hfold, hne, hlong,
      Bool.false_eq_true, if_false, decide_false]

end NoPorts.CArgs
