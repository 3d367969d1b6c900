import Mathlib.Data.List.Nodup
import TableRoster.Proofs.Layout

/-! # The names that the aggregate module binds

Tables share no symbol unless the settings allow it. Nothing keeps a symbol from being the name of
the aggregate or one of the names that the module declares for itself. -/

namespace TableRoster

variable {s : Settings} {ts : List Table} {time : Timestamp} {a : Aggregate}

/-! ## Symbols of tables -/

section

variable {α β : Type} [DecidableEq β]

theorem nodup_firstSeen (bs : List β) : (firstSeen bs).Nodup := by
  induction bs with
  | nil => exact List.nodup_nil
  | cons b bs ih => exact List.nodup_cons.2 ⟨by simp, ih.filter _⟩

/-- What is told apart by its keys, key by key. -/
theorem perm_of_keys (f : α → β) {keys : List β} (hk : keys.Nodup) {xs : List α}
    (hx : ∀ x ∈ xs, f x ∈ keys) : (keys.flatMap fun b => xs.filter (f · = b)).Perm xs := by
  induction keys generalizing xs with
  | nil =>
    obtain rfl : xs = [] := List.eq_nil_iff_forall_not_mem.2 fun x hm => by simpa using hx x hm
    rfl
  | cons b keys ih =>
    obtain ⟨hb, hk⟩ := List.nodup_cons.1 hk
    have hothers : ∀ x ∈ xs.filter fun x => !decide (f x = b), f x ∈ keys := by
      intro x hm
      obtain ⟨hm, hne⟩ := List.mem_filter.1 hm
      exact (List.mem_cons.1 (hx x hm)).resolve_left (by simpa using hne)
    have hsame : (keys.flatMap fun c => xs.filter (f · = c))
        = keys.flatMap fun c => (xs.filter fun x => !decide (f x = b)).filter (f · = c) := by
      refine List.flatMap_congr fun c hc => ?_
      rw [List.filter_filter]
      refine List.filter_congr fun x _ => ?_
      have hne : c ≠ b := fun he => hb (he ▸ hc)
      by_cases he : f x = c <;> simp [he, hne]
    rw [List.flatMap_cons, hsame]
    exact ((ih hk hothers).append_left _).trans (List.filter_append_perm _ xs)

end

/-- The groups have the symbols of all tables. -/
theorem symbols_groups_perm (ts : List Table) :
    ((groups ts).flatMap (·.2)).Perm (ts.map (·.symbol)) := by
  have hkeys : ∀ t ∈ ts, t.specifier ∈ specifiers ts := fun t ht =>
    Layout.mem_firstSeen.2 (List.mem_map_of_mem ht)
  rw [groups, List.flatMap_map]
  have := (perm_of_keys Table.specifier (nodup_firstSeen _) hkeys).map Table.symbol
  rwa [List.map_flatMap] at this

theorem duplicates_eq_nil_iff : duplicates ts = [] ↔ (ts.map (·.symbol)).Nodup := by
  have hcount : ∀ x, (ts.filter (·.symbol = x)).length = (ts.map (·.symbol)).count x := by
    intro x
    rw [List.count_eq_countP, List.countP_map, List.countP_eq_length_filter]
    rfl
  simp only [duplicates, List.filter_eq_nil_iff, List.forall_mem_map, Layout.mem_firstSeen,
    List.length_map, hcount, List.nodup_iff_count_le_one, decide_eq_true_eq, Nat.not_lt]
  refine ⟨fun h x => ?_, fun h t _ => h t.symbol⟩
  by_cases hx : x ∈ ts.map (·.symbol)
  · obtain ⟨t, ht, rfl⟩ := List.mem_map.1 hx
    exact h t ht
  · simp [List.count_eq_zero.2 hx]

/-! ## Bound names -/

namespace Aggregate

/-- What the aggregate module binds to values: what it imports, the aggregate, and, if asked for, the
names of all tables. -/
def boundValues (s : Settings) (ts : List Table) : List String :=
  (groups ts).flatMap (·.2) ++ s.aggregateName :: if s.emitNames then ["tableNames"] else []

/-- The types that the aggregate module declares. -/
def declaredTypes (s : Settings) : List String :=
  (if s.emitTypes then [Layout.typeName s.aggregateName] else [])
    ++ if s.emitNames then ["TableName"] else []

/-- Tables of one symbol are refused, unless the settings allow them. -/
theorem nodup_of_emit (hd : s.allowDuplicates = false) (h : (emit s time ts).result = .ok a) :
    (ts.map (·.symbol)).Nodup := by
  refine duplicates_eq_nil_iff.1 (by_contra fun hdup => ?_)
  simp only [emit, hd, hdup, ne_eq, not_false_eq_true, Bool.false_eq_true, and_self, ↓reduceIte] at h
  split at h
  · cases h
  · split at h <;> cases h

theorem nodup_boundValues_iff (h : (ts.map (·.symbol)).Nodup) :
    (boundValues s ts).Nodup ↔ (∀ t ∈ ts, t.symbol ≠ s.aggregateName)
      ∧ (s.emitNames = true → s.aggregateName ≠ "tableNames" ∧ ∀ t ∈ ts, t.symbol ≠ "tableNames") := by
  have hperm := (symbols_groups_perm ts).append_right
    (s.aggregateName :: if s.emitNames then ["tableNames"] else [])
  rw [boundValues, hperm.nodup_iff, List.nodup_append]
  cases s.emitNames with
  | false => simp [h]
  | true =>
    simp only [↓reduceIte, h, List.nodup_cons, List.not_mem_nil,
      not_false_eq_true, List.nodup_nil, and_true, List.forall_mem_map, List.mem_cons, or_false,
      forall_eq_or_imp, forall_eq, true_and, forall_const]
    constructor
    · rintro ⟨hn, hts⟩
      exact ⟨fun t ht => (hts t ht).1, hn, fun t ht => (hts t ht).2⟩
    · rintro ⟨hts, hn, hts'⟩
      exact ⟨hn, fun t ht => ⟨hts t ht, hts' t ht⟩⟩

end Aggregate

/-! ## Names of types -/

namespace Layout

/-- Only one other letter becomes a `T`. -/
theorem upper_eq_iff {c : Char} (h : (c.isAlpha || c == '_' || c == '$') = true) :
    Text.upper c = ['T'] ↔ c = 't' ∨ c = 'T' := by
  have hall : ∀ n < 128, (let c := Char.ofNat n
      (c.isAlpha || c == '_' || c == '$') = true → (c.toUpper = 'T' ↔ c = 't' ∨ c = 'T')) := by
    decide
  have hc := hall c.toNat (toNat_lt_of_startsName h)
  rw [Char.ofNat_toNat] at hc
  rw [upper_of_startsName h, List.singleton_inj]
  exact hc h

theorem upper_length {c : Char} (h : (c.isAlpha || c == '_' || c == '$') = true) :
    (Text.upper c).length = 1 := by
  rw [upper_of_startsName h]
  rfl

/-- Two names make the aggregate's type the type of table names. -/
theorem typeName_eq_iff {name : String} (h : Settings.isAggregateName name.toList = true) :
    typeName name = "TableName" ↔ name = "tableName" ∨ name = "TableName" := by
  obtain ⟨cs, rfl⟩ : ∃ cs, name = String.ofList cs := ⟨name.toList, by simp⟩
  rw [String.toList_ofList] at h
  cases cs with
  | nil => cases h
  | cons c r =>
    simp only [Settings.isAggregateName, Bool.and_eq_true] at h
    obtain ⟨x, hx⟩ := List.length_eq_one_iff.1 (upper_length h.1)
    have hT := upper_eq_iff h.1
    rw [hx, List.singleton_inj] at hT
    simp only [typeName, String.toList_ofList, hx, ← String.toList_inj, List.cons_append,
      List.nil_append, show "TableName".toList = 'T' :: "ableName".toList from rfl,
      show "tableName".toList = 't' :: "ableName".toList from rfl, List.cons.injEq, hT]
    tauto

end Layout

namespace Aggregate

theorem nodup_declaredTypes_iff (hs : s.Valid) : (declaredTypes s).Nodup ↔
    ¬ (s.emitTypes = true ∧ s.emitNames = true
      ∧ (s.aggregateName = "tableName" ∨ s.aggregateName = "TableName")) := by
  rw [← Layout.typeName_eq_iff hs.aggregate_ok, declaredTypes]
  cases s.emitTypes <;> cases s.emitNames <;> simp

/-- An aggregate module binds a name twice exactly if the settings give the aggregate a name that is
taken, or a table has the name of the aggregate or of the names of all tables. -/
theorem names_distinct_iff (hs : s.Valid) (hd : s.allowDuplicates = false)
    (h : (emit s time ts).result = .ok a) :
    ((boundValues s a.tables).Nodup ↔ (∀ t ∈ ts, t.symbol ≠ s.aggregateName)
      ∧ (s.emitNames = true → s.aggregateName ≠ "tableNames" ∧ ∀ t ∈ ts, t.symbol ≠ "tableNames"))
    ∧ ((declaredTypes s).Nodup ↔ ¬ (s.emitTypes = true ∧ s.emitNames = true
      ∧ (s.aggregateName = "tableName" ∨ s.aggregateName = "TableName"))) := by
  obtain ⟨-, rfl⟩ := Layout.emitted h
  exact ⟨nodup_boundValues_iff (nodup_of_emit hd h), nodup_declaredTypes_iff hs⟩

/-! ## Settings with a name for the aggregate -/

def namedSettings (name : String) : Settings :=
  { Layout.folderSettings "a" with aggregateName := name }

def namedTable (symbol : String) : Table :=
  ⟨symbol, ⟨.slash, ["a", "users.ts"]⟩, "./users"⟩

theorem valid_namedSettings {name : String} (h : Settings.isAggregateName name.toList = true) :
    (namedSettings name).Valid :=
  ⟨by simp [namedSettings, Layout.folderSettings], by simp [namedSettings, Layout.folderSettings],
    by simp [namedSettings, Layout.folderSettings], h⟩

theorem emit_namedTable (name symbol : String) (time : Timestamp) :
    ∃ a, (emit (namedSettings name) time [namedTable symbol]).result = .ok a
      ∧ a.tables = [namedTable symbol] := by
  have hone : duplicates [namedTable symbol] = [] :=
    duplicates_eq_nil_iff.2 (List.nodup_singleton _)
  have hspecifier : (namedTable symbol).specifier ≠ "" := by simp [namedTable]
  exact ⟨⟨Layout.body (namedSettings name) [namedTable symbol], time, [namedTable symbol]⟩,
    by simp [emit, hone, hspecifier], rfl⟩

/-- A time for the header. -/
def headerTime : Timestamp :=
  ⟨2024, 1, 2, 3, 4, 5, 0, some 0⟩

/-- A table and an aggregate that share no name. -/
theorem names_distinct_users :
    ∃ a, (emit (namedSettings "dbSchema") headerTime [namedTable "users"]).result = .ok a
      ∧ (boundValues (namedSettings "dbSchema") a.tables).Nodup
      ∧ (declaredTypes (namedSettings "dbSchema")).Nodup := by
  obtain ⟨a, ha, -⟩ := emit_namedTable "dbSchema" "users" headerTime
  obtain ⟨hvalues, htypes⟩ := names_distinct_iff (valid_namedSettings (by decide +kernel)) rfl ha
  refine ⟨a, ha, hvalues.2 ⟨?_, fun _ => ⟨?_, ?_⟩⟩, htypes.2 ?_⟩
  · simp [namedTable, namedSettings]
  · simp [namedSettings]
  · simp [namedTable]
  · simp [namedSettings]

/-- A module is emitted though a table has the name of the aggregate, or a table or the aggregate that
of the names of all tables, or though the aggregate's type has the name of the type of table names. -/
theorem names_clash :
    (∀ c ∈ [("users", "users"), ("dbSchema", "tableNames"), ("tableNames", "users")],
      (namedSettings c.1).Valid
        ∧ ∃ a, (emit (namedSettings c.1) headerTime [namedTable c.2]).result = .ok a
          ∧ ¬ (boundValues (namedSettings c.1) a.tables).Nodup)
    ∧ (namedSettings "tableName").Valid
      ∧ ∃ a, (emit (namedSettings "tableName") headerTime [namedTable "users"]).result = .ok a
        ∧ ¬ (declaredTypes (namedSettings "tableName")).Nodup := by
  have emitted : ∀ name symbol, Settings.isAggregateName name.toList = true →
      ¬ (boundValues (namedSettings name) [namedTable symbol]).Nodup →
      (namedSettings name).Valid
        ∧ ∃ a, (emit (namedSettings name) headerTime [namedTable symbol]).result = .ok a
          ∧ ¬ (boundValues (namedSettings name) a.tables).Nodup := by
    intro name symbol hname hclash
    obtain ⟨a, ha, htables⟩ := emit_namedTable name symbol headerTime
    exact ⟨valid_namedSettings hname, a, ha, htables ▸ hclash⟩
  refine ⟨?_, valid_namedSettings (by decide +kernel), ?_⟩
  · simp only [List.forall_mem_cons]
    exact ⟨emitted _ _ (by decide +kernel) (by decide), emitted _ _ (by decide +kernel) (by decide),
      emitted _ _ (by decide +kernel) (by decide), nofun⟩
  · obtain ⟨a, ha, -⟩ := emit_namedTable "tableName" "users" headerTime
    have hvalid : (namedSettings "tableName").Valid := valid_namedSettings (by decide +kernel)
    exact ⟨a, ha, fun h => (nodup_declaredTypes_iff hvalid).1 h ⟨rfl, rfl, .inl rfl⟩⟩

end Aggregate

end TableRoster
