import Sift.Command.Run
import Sift.Proofs.Json.Shape
import Sift.Proofs.Results
import Sift.Proofs.Selection.Pointwise

/-!
# Selection with a checked filter

A check against a schema rewrites a filter: operands that nobody looks at go,
and texts that name dates become dates. For rows whose values have the declared
types, as a stored list of records has them, the rewritten filter keeps the
same rows in the same order.

* `Value.Fits`, `Schema.Describes`: values of a type, and rows of a schema;
* `Schema.describes_of_listOfJson`: records read with a schema are rows of it;
* `Condition.Resolved`: what a check makes of a condition, and
  `Condition.holds_of_resolved`: that it holds of the same values of the type;
* `Filter.select_check`: on rows of the schema, a checked filter selects as the
  filter itself;
* `select_check_and_perform_lenient`: the same for records that are read, and
  for a whole run with and without the check.
-/

namespace Sift

variable {α : Type} [Row α] {mode : DateEquality} {schema : Schema}

/-! ## Values of the declared types -/

/-- A value of a type: null, or one of the kind that the type has. -/
inductive Value.Fits : Value → PropertyType → Prop
  | null {t : PropertyType} : Fits .null t
  | text (s : String) : Fits (.text s) .text
  | boolean (b : Bool) : Fits (.boolean b) .boolean
  | number (d : Double) : Fits (.number d) .number
  | date (i : Instant) : Fits (.date i) .date
  | option (t : Tag) : Fits (.option t) .option
  | optionList (ts : List Tag) : Fits (.optionList ts) .optionList

/-- Whether the values of a row have the types that a schema declares. -/
def Schema.Describes (schema : Schema) (row : α) : Prop :=
  ∀ property t, schema.get? property = some t → (Row.value row property).Fits t

theorem Value.fits_of_ofJson? {t : PropertyType} {j : Json} {v : Value}
    (h : ofJson? (some t) j = some v) : v.Fits t := by
  unfold ofJson? at h
  split at h
  · exact Option.some.inj h ▸ .null
  · rename_i he
    cases he
    unfold ofTyped? at h
    split at h
    · exact Option.some.inj h ▸ .text _
    · exact Option.some.inj h ▸ .boolean _
    · exact Option.some.inj h ▸ .number _
    · obtain ⟨i, _, rfl⟩ := Option.map_eq_some_iff.1 h
      exact .date i
    · obtain ⟨t, _, rfl⟩ := Option.map_eq_some_iff.1 h
      exact .option t
    · obtain ⟨ts, _, rfl⟩ := Option.map_eq_some_iff.1 h
      exact .optionList ts
    · exact absurd h (by simp)
  · rename_i he
    exact absurd he (by simp)

namespace Record

theorem value_set (r : Record) (property key : String) (v : Value) :
    (r.set property v).value key = if key = property then v else r.value key := by
  rw [value, set, Columns.get?_set]
  split
  · rfl
  · rw [value]

theorem describes_setAll {r r' : Record} {entries : List (String × Json)}
    (hr : schema.Describes r) (h : setAll schema r entries = .ok r') : schema.Describes r' := by
  induction entries generalizing r with
  | nil =>
    rw [setAll] at h
    exact Except.ok.inj h ▸ hr
  | cons entry entries ih =>
    obtain ⟨property, stored⟩ := entry
    rw [setAll] at h
    split at h
    · exact ih hr h
    · dsimp only at h
      split at h
      · rename_i v hv
        refine ih (fun key t ht => ?_) h
        change ((r.set property v).value key).Fits t
        rw [value_set]
        split
        · rename_i hkey
          rw [← hkey, ht] at hv
          exact Value.fits_of_ofJson? hv
        · exact hr key t ht
      · exact absurd h (by simp)

theorem describes_ofJson {j : Json} {r : Record} (h : ofJson schema j = .ok r) :
    schema.Describes r := by
  cases j with
  | object entries =>
    rw [ofJson, Except.bind_eq_ok] at h
    obtain ⟨id, _, h⟩ := h
    refine describes_setAll (r := new id) (fun property t _ => ?_) h
    exact .null
  | _ => exact absurd h (by simp [ofJson])

theorem readAll_eq_ok_iff {items : List Json} {rs : List Record} :
    readAll schema items = .ok rs ↔
      List.Forall₂ (fun item r => ofJson schema item = .ok r) items rs := by
  induction items generalizing rs with
  | nil => simp [readAll, eq_comm]
  | cons item items ih =>
    rw [readAll, List.forall₂_cons_left_iff]
    simp only [Except.bind_eq_ok, Except.pure_eq_ok, ih]
    constructor
    · rintro ⟨r, hr, rs, hrs, rfl⟩
      exact ⟨r, rs, hr, hrs, rfl⟩
    · rintro ⟨r, rs, hr, hrs, rfl⟩
      exact ⟨r, hr, rs, hrs, rfl⟩

/-- The records that are read are read from the items. -/
theorem exists_of_mem_readAll {items : List Json} {rs : List Record} {r : Record}
    (h : readAll schema items = .ok rs) (hr : r ∈ rs) :
    ∃ j ∈ items, ofJson schema j = .ok r :=
  Json.exists_of_forall₂_of_mem (R := fun j r => ofJson schema j = .ok r)
    (readAll_eq_ok_iff.1 h) hr

end Record

/-- Records that are read with a schema have values of the types that it
    declares. -/
theorem Schema.describes_of_listOfJson {j : Json} {rs : List Record}
    (h : Record.listOfJson schema j = .ok rs) : ∀ r ∈ rs, schema.Describes r := by
  intro r hr
  cases j with
  | list items =>
    obtain ⟨item, -, hread⟩ := Record.exists_of_mem_readAll h hr
    exact Record.describes_ofJson hread
  | _ => exact absurd h (by simp [Record.listOfJson])

/-! ## Checked conditions -/

theorem Operand.resolve_cases {property : String} {t : PropertyType} {x y : Operand}
    (h : x.resolve property t = .ok y) :
    y = x ∨ t = .date ∧ ∃ s i, x = .text s ∧ Instant.ofText? s.toList = some i ∧ y = .date i := by
  unfold resolve at h
  split at h
  all_goals try exact .inl (Except.ok.inj h).symm
  · rename_i s
    split at h
    · rename_i i hi
      exact .inr ⟨rfl, s, i, rfl, hi, (Except.ok.inj h).symm⟩
    · exact absurd h (by simp)
  · exact absurd h (by simp)

/-- What a check makes of a condition: the condition itself, the condition
    without its operand where the comparator takes none, or the condition with a
    date in place of the text that names it. -/
inductive Condition.Resolved (schema : Schema) : Condition → Condition → Prop
  | same {c : Condition} : Resolved schema c c
  | unary {c : Condition} : c.comparator.isUnary → Resolved schema c { c with operand := none }
  | date {property : String} {comparator : Comparator} {s : String} {i : Instant} :
    schema.get? property = some .date → PropertyType.date.allows comparator →
    Instant.ofText? s.toList = some i →
    Resolved schema ⟨property, comparator, some (.text s)⟩ ⟨property, comparator, some (.date i)⟩

theorem Condition.resolved_of_check {c d : Condition} (h : c.check schema = .ok d) :
    c.Resolved schema d := by
  obtain ⟨property, comparator, operand⟩ := c
  unfold check at h
  split at h
  · exact absurd h (by simp)
  split at h
  · exact absurd h (by simp)
  rename_i t ht
  split at h
  · exact absurd h (by simp)
  rename_i hallows
  split at h
  · rename_i hunary
    exact Except.ok.inj h ▸ .unary hunary
  split at h
  · exact absurd h (by simp)
  rename_i x hx
  obtain ⟨y, hy, rfl⟩ := Except.map_eq_ok.1 h
  dsimp only at hx
  subst hx
  rcases Operand.resolve_cases hy with rfl | ⟨rfl, s, i, rfl, hi, rfl⟩
  · exact .same
  · exact .date ht (by simpa using hallows) hi

/-- On dates and nulls, a text that names a date equals what the date equals. -/
theorem Value.equals_date {v : Value} (hv : v.Fits .date) {s : String} {i : Instant}
    (hi : Instant.ofText? s.toList = some i) :
    v.equals mode (.date i) = v.equals mode (.text s) := by
  cases hv with
  | null => rfl
  | date j =>
    cases mode with
    | identity => rfl
    | instant =>
      rw [equals, equals, Operand.asDate?, Operand.asDate?, hi]

theorem Condition.withDate_date {s : String} {i : Instant}
    (hi : Instant.ofText? s.toList = some i) (test : Instant → Bool) :
    withDate (some (.date i)) test = withDate (some (.text s)) test := by
  rw [withDate, withDate, Option.bind_some, Option.bind_some, Operand.asDate?, Operand.asDate?, hi]

/-- On values of the declared type, a checked condition holds where the
    condition itself does. -/
theorem Condition.holds_of_resolved {c d : Condition} (h : c.Resolved schema d) {v : Value}
    (hv : ∀ t, schema.get? c.property = some t → v.Fits t) :
    d.holds mode v = c.holds mode v := by
  cases h with
  | same => rfl
  | unary h =>
    obtain ⟨property, comparator, operand⟩ := c
    rw [Comparator.isUnary, Bool.or_eq_true, decide_eq_true_eq, decide_eq_true_eq] at h
    rcases h with rfl | rfl <;> rfl
  | @date property comparator s i ht hallows hi =>
    -- Whatever a date property may be compared by takes texts for dates itself.
    have hequals : v.equals mode (.date i) = v.equals mode (.text s) :=
      Value.equals_date (hv _ ht) hi
    cases comparator with
    | equals => rw [holds, holds, Option.any_some, Option.any_some, hequals]
    | notEquals => rw [holds, holds, Option.all_some, Option.all_some, hequals]
    | before | after | onOrBefore | onOrAfter => exact withDate_date hi _
    | isEmpty | isNotEmpty => rfl
    | _ => exact absurd hallows (by decide)

/-! ## Checked filters -/

namespace Filter

theorem checkAll_eq_ok_nil {gs : List Filter} : checkAll schema [] = .ok gs ↔ gs = [] := by
  rw [checkAll]
  exact ⟨fun h => (Except.ok.inj h).symm, fun h => h ▸ rfl⟩

theorem checkAll_eq_ok_cons {f : Filter} {fs gs : List Filter} :
    checkAll schema (f :: fs) = .ok gs ↔
      ∃ g gs', f.check schema = .ok g ∧ checkAll schema fs = .ok gs' ∧ gs = g :: gs' := by
  rw [checkAll, Except.bind_eq_ok]
  constructor
  · rintro ⟨g, hg, h⟩
    rw [Except.bind_eq_ok] at h
    obtain ⟨gs', hgs, h⟩ := h
    exact ⟨g, gs', hg, hgs, (Except.pure_eq_ok.1 h).symm⟩
  · rintro ⟨g, gs', hg, hgs, rfl⟩
    refine ⟨g, hg, ?_⟩
    rw [hgs]
    rfl

theorem checkAll_map {gs : List Filter} {read : Filter → Filter}
    (h : ∀ g ∈ gs, (read g).check schema = .ok g) : checkAll schema (gs.map read) = .ok gs := by
  induction gs with
  | nil => exact checkAll_eq_ok_nil.2 rfl
  | cons g gs ih =>
    rw [List.forall_mem_cons] at h
    exact checkAll_eq_ok_cons.2 ⟨g, gs, h.1, ih h.2, rfl⟩

/-- A group is checked filter by filter, if its connective is known. -/
theorem check_group_eq_ok {connective : Connective} {fs : List Filter} {g : Filter} :
    (group connective fs).check schema = .ok g ↔
      connective ≠ .unknown ∧ ∃ gs, checkAll schema fs = .ok gs ∧ g = group connective gs := by
  cases connective with
  | unknown => simp [check]
  | _ => simp [check, Except.map_eq_ok, @eq_comm _ g]

theorem narrow_checkAll {fs gs : List Filter} (h : checkAll schema fs = .ok gs)
    (hfs : ∀ f ∈ fs, ∀ (g : Filter) (rows : List α), (∀ row ∈ rows, schema.Describes row) →
      f.check schema = .ok g → g.select mode rows = f.select mode rows)
    {rows : List α} (hrows : ∀ row ∈ rows, schema.Describes row) :
    narrow mode gs rows = narrow mode fs rows := by
  induction fs generalizing gs rows with
  | nil => rw [checkAll_eq_ok_nil.1 h]
  | cons f fs ih =>
    obtain ⟨g, gs', hg, hgs, rfl⟩ := checkAll_eq_ok_cons.1 h
    rw [List.forall_mem_cons] at hfs
    rw [narrow, narrow, hfs.1 g rows hrows hg]
    -- The next filter sees some of the same rows, so they are of the schema, too.
    exact ih hgs hfs.2 fun row hrow => hrows row (mem_and_satisfies_of_mem_select hrow).1

theorem branches_checkAll {fs gs : List Filter} (h : checkAll schema fs = .ok gs) {rows : List α}
    (hfs : ∀ f ∈ fs, ∀ g, f.check schema = .ok g → g.select mode rows = f.select mode rows) :
    branches mode gs rows = branches mode fs rows := by
  induction fs generalizing gs with
  | nil => rw [checkAll_eq_ok_nil.1 h]
  | cons f fs ih =>
    obtain ⟨g, gs', hg, hgs, rfl⟩ := checkAll_eq_ok_cons.1 h
    rw [List.forall_mem_cons] at hfs
    rw [branches, branches, hfs.1 g hg, ih hgs hfs.2]

/-- On rows of the schema, a checked filter keeps what the filter itself keeps,
    in the same order. -/
theorem select_check {f g : Filter} (h : f.check schema = .ok g) {rows : List α}
    (hrows : ∀ row ∈ rows, schema.Describes row) : g.select mode rows = f.select mode rows := by
  induction f generalizing g rows with
  | condition c =>
    rw [check] at h
    obtain ⟨d, hd, rfl⟩ := Except.map_eq_ok.1 h
    have hresolved := Condition.resolved_of_check hd
    have hproperty : d.property = c.property := by cases hresolved <;> rfl
    rw [select_condition, select_condition, Condition.select, Condition.select, hproperty]
    exact List.filter_congr fun row hrow =>
      Condition.holds_of_resolved hresolved fun t ht => hrows row hrow _ t ht
  | group connective fs ih =>
    cases connective with
    | and =>
      rw [check] at h
      obtain ⟨gs, hgs, rfl⟩ := Except.map_eq_ok.1 h
      rw [select_and, select_and]
      exact narrow_checkAll hgs (fun f hf _ _ hrows hg => ih f hf hg hrows) hrows
    | or =>
      rw [check] at h
      obtain ⟨gs, hgs, rfl⟩ := Except.map_eq_ok.1 h
      rw [select_or, select_or, branches_checkAll hgs fun f hf _ hg => ih f hf hg hrows]
    | unknown => exact absurd h (by simp [check])

end Filter

/-! ## Runs without the check -/

namespace Command

variable {sources : Sources} {a b : Arguments}

theorem exists_listOfJson_of_recordsStage (ha : a.layout = .records) {given : Option Schema}
    {rs : List Record} (h : recordsStage sources a given = .ok (rs, schema)) :
    ∃ j, Record.listOfJson schema j = .ok rs := by
  unfold recordsStage at h
  split at h
  · exact absurd h (by simp)
  split at h
  · exact absurd h (by simp)
  rename_i j _
  rw [ha, Document.records] at h
  cases hj : Record.listOfJson (given.getD .stock) j with
  | error fault =>
    rw [hj] at h
    exact absurd h (by simp)
  | ok rs' =>
    rw [hj] at h
    cases h
    exact ⟨j, hj⟩

theorem check_of_checkStage (ha : a.has .lenient = false) {f g : Filter}
    (h : checkStage a schema f = .ok g) : f.check schema = .ok g := by
  rw [checkStage, ha, if_neg Bool.false_ne_true] at h
  cases hf : f.check schema with
  | error fault =>
    rw [Document.checked, hf] at h
    exact absurd h (by simp [Except.mapError])
  | ok g' =>
    rw [Document.checked, hf] at h
    exact congrArg _ (Except.ok.inj h)

theorem Arguments.turnOn_eq_some {s : Switch} : a.turnOn s = some b ↔
    a.has s = false ∧ b = { a with switches := a.switches ++ [s] } := by
  rw [turnOn]
  cases h : a.has s with
  | false => exact ⟨fun h => ⟨rfl, (Option.some.inj h).symm⟩, fun h => h.2 ▸ rfl⟩
  | true => simp

theorem Arguments.has_of_turnOn {s t : Switch} (h : a.turnOn s = some b) :
    b.has t = (a.has t || t == s) := by
  obtain ⟨_, rfl⟩ := turnOn_eq_some.1 h
  rw [has, List.contains_append, has, List.contains_cons, List.contains_nil, Bool.or_false]

theorem checkStage_of_has (hb : b.has .lenient) (f : Filter) : checkStage b schema f = .ok f := by
  rw [checkStage, if_pos hb]

/-- A run on a list of records that succeeds has the same outcome without the
    check. -/
theorem perform_lenient (ha : a.layout = .records) (hb : a.turnOn .lenient = some b)
    {outcome : Outcome} (h : perform sources a = .ok outcome) :
    perform sources b = .ok outcome := by
  have hstrict := (Arguments.turnOn_eq_some.1 hb).1
  have hcount : b.has .count = a.has .count := by
    rw [Arguments.has_of_turnOn hb, show (Switch.count == .lenient) = false from rfl, Bool.or_false]
  have hlenient : b.has .lenient := by
    rw [Arguments.has_of_turnOn hb, beq_self_eq_true, Bool.or_true]
  -- No other stage looks at the switches, so that its results stay.
  obtain ⟨settings, switches, query⟩ := b
  obtain ⟨rfl, rfl⟩ : settings = a.settings ∧ query = a.query := by
    cases (Arguments.turnOn_eq_some.1 hb).2
    exact ⟨rfl, rfl⟩
  have hget (s : Setting) : Arguments.get? ⟨a.settings, switches, a.query⟩ s = a.get? s := rfl
  rw [perform, Except.bind_eq_ok] at h ⊢
  obtain ⟨given, hgiven, h⟩ := h
  refine ⟨given, hgiven, ?_⟩
  simp only [hget, hcount]
  split at h
  · exact h
  rw [Except.bind_eq_ok] at h ⊢
  obtain ⟨⟨rs, schema⟩, hrs, h⟩ := h
  refine ⟨(rs, schema), hrs, ?_⟩
  dsimp only at h ⊢
  split at h
  · exact h
  · exact h
  -- Only here the two runs differ: one goes on with the checked filter.
  rw [Except.bind_eq_ok] at h ⊢
  obtain ⟨f, hf, h⟩ := h
  refine ⟨f, hf, ?_⟩
  rw [Except.bind_eq_ok] at h ⊢
  obtain ⟨g, hg, h⟩ := h
  refine ⟨f, checkStage_of_has hlenient f, ?_⟩
  obtain ⟨j, hj⟩ := exists_listOfJson_of_recordsStage ha hrs
  have hselect : g.select a.dateEquality rs = f.select a.dateEquality rs :=
    Filter.select_check (check_of_checkStage hstrict hg) (Schema.describes_of_listOfJson hj)
  rw [hselect] at h
  exact h

end Command

/-- A filter that the check accepts keeps the same records of a list, in the
    same order, as what the check makes of it. So leaving the check out of a run
    on such a list does not change what comes out. -/
theorem select_check_and_perform_lenient :
    (∀ (schema : Schema) (j : Json) (rs : List Record) (f g : Filter) (mode : DateEquality),
      Record.listOfJson schema j = .ok rs → f.check schema = .ok g →
      g.select mode rs = f.select mode rs) ∧
      ∀ (sources : Command.Sources) (a b : Command.Arguments) (outcome : Command.Outcome),
        a.layout = .records → a.turnOn .lenient = some b →
        Command.perform sources a = .ok outcome → Command.perform sources b = .ok outcome :=
  ⟨fun _ _ _ _ _ _ hj hf => Filter.select_check hf (Schema.describes_of_listOfJson hj),
    fun _ _ _ _ ha hb h => Command.perform_lenient ha hb h⟩

/-- Days of a calendar, the second one without a date. -/
def calendar : Json :=
  .list [.object [("id", .text "a"), ("date", .text "2024-01-02")], .object [("id", .text "b")]]

/-- A date given as a text, and a comparator with an operand that it has no use
    for. -/
def dated : Filter :=
  .group .or [.condition ⟨"date", .onOrBefore, some (.text "2024-01-02")⟩,
    .condition ⟨"date", .isEmpty, some (.boolean true)⟩]

/-- A command line on a file with records. -/
def inventory : Command.Sources where
  file _ := .ok "[\x7b\"id\": 1, \"date\": \"2024-01-02\"\x7d, \x7b\"id\": 2\x7d]"
  standardInput := .ok ""
  environment _ := none

/-- The identities of the records of one day. -/
def onOneDay : Command.Arguments where
  settings := [(.records, "inventory.json"), (.output, "ids"), (.dateEquality, "instant")]
  switches := []
  query := some "date equals \"2024-01-02\""

theorem select_check_dated_and_perform_lenient_onOneDay :
    (∃ rs g, Record.listOfJson .stock calendar = .ok rs ∧ dated.check .stock = .ok g ∧
      g.select .instant rs = dated.select .instant rs) ∧
      onOneDay.layout = .records ∧
      onOneDay.turnOn .lenient = some { onOneDay with switches := [.lenient] } ∧
      Command.perform inventory onOneDay = .ok (.success ["1"]) ∧
      Command.perform inventory { onOneDay with switches := [.lenient] } =
        .ok (.success ["1"]) := by
  have hrun : Command.perform inventory onOneDay = .ok (.success ["1"]) := by
    decide +kernel
  obtain ⟨hselect, hperform⟩ := select_check_and_perform_lenient
  exact ⟨⟨_, _, rfl, rfl, hselect .stock calendar _ dated _ .instant rfl rfl⟩, rfl, rfl, hrun,
    hperform inventory onOneDay _ _ rfl rfl hrun⟩

end Sift
