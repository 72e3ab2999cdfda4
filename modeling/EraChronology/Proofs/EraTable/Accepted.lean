import EraChronology.EraTable
import EraChronology.Proofs.Except

set_option autoImplicit false

/-! # What an accepted table satisfies

`EraTable.ofDefs?` looks at one definition at a time and compares it with the one before it
alone. What a table it accepts satisfies as a whole is `EraTable.IsOrdered`: different names,
positions in order, the last era and no other open, starts at midnight within the bound, and
every era after all eras before it. `EraTable.RunsOn` is the invariant behind it, about the eras
that follow the definitions already read.
-/

namespace EraChronology

/-- `a` can stand before `b` in a table: `b` has a start, and `a` none or an earlier one. -/
def Era.Precedes (a b : Era) : Prop := ∃ t, b.since = some t ∧ ∀ s, a.since = some s → s < t

/-- A start is a midnight within the bound, and its year is the era's year 1. -/
def Era.StartsWithin (e : Era) (b : Bound) : Prop :=
  ∀ t, e.since = some t →
    t % msPerDay = 0 ∧ b.Contains t ∧ e.yearOrigin = EraTable.yearOfInstant t

namespace EraTable

/-! ## One definition -/

theorem orderFault?_eq_none_iff (before : List EraDef) (d : EraDef) (t : Int) :
    orderFault? before d t = none ↔ ∀ p ∈ before.head?, ∀ s, p.since = some s → s < t := by
  unfold orderFault?
  cases before with
  | nil => simp
  | cons p _ =>
      cases hp : p.since with
      | none => simp [hp]
      | some s => simp [hp]

theorem originFault?_eq_none_iff (d : EraDef) (t : Int) :
    originFault? d t = none ↔ ∀ y, d.yearOrigin = some y → y = yearOfInstant t := by
  unfold originFault?
  cases hd : d.yearOrigin with
  | none => simp
  | some y => simp

/-- A start is in order when it passes the four checks. -/
theorem startFault?_eq_none_iff (bound : Bound) (before : List EraDef) (d : EraDef) (t : Int) :
    startFault? bound before d t = none ↔
      t % msPerDay = 0 ∧ (∀ p ∈ before.head?, ∀ s, p.since = some s → s < t) ∧
        bound.Contains t ∧ ∀ y, d.yearOrigin = some y → y = yearOfInstant t := by
  rw [← orderFault?_eq_none_iff before d t, ← originFault?_eq_none_iff]
  unfold startFault?
  by_cases hmidnight : t % msPerDay = 0
  · rw [if_neg (fun h => h hmidnight)]
    cases horder : orderFault? before d t with
    | some fault => simp
    | none =>
        by_cases hbound : bound.Contains t
        · simp [hmidnight, hbound]
        · simp [hbound]
  · rw [if_pos hmidnight]
    simp [hmidnight]

/-- A definition is accepted when its name is new and it either begins the table without a
start, or has a start in order. -/
theorem origin?_eq_ok_iff (bound : Bound) (before : List EraDef) (d : EraDef) (y : Int) :
    origin? bound before d = .ok y ↔
      d.name ∉ before.map EraDef.name ∧
        (d.since = none ∧ before = [] ∧ y = d.yearOrigin.getD 1 ∨
          ∃ t, d.since = some t ∧ startFault? bound before d t = none ∧ y = yearOfInstant t) := by
  unfold origin?
  by_cases hname : d.name ∈ before.map EraDef.name
  · rw [if_pos hname]
    simp [hname]
  · rw [if_neg hname]
    cases hsince : d.since with
    | none =>
        by_cases hfirst : before = []
        · subst hfirst
          simp [eq_comm]
        · simp [hfirst]
    | some t =>
        cases hstart : startFault? bound before d t with
        | some fault => simp [hstart]
        | none =>
            simp only [hname, not_false_eq_true, true_and, Option.some.injEq, exists_eq_left',
              reduceCtorEq, false_and, false_or, hstart, Except.ok.injEq]
            exact eq_comm

/-- The era of a definition that follows the definitions `before`. -/
def rowOf (before : List EraDef) (d : EraDef) (rest : List EraDef) (yearOrigin : Int) : Era :=
  { name := d.name, abbr := d.abbr, index := before.length, since := d.since,
    yearOrigin := yearOrigin, isOpen := rest.isEmpty }

theorem erasFrom?_cons_eq_ok_iff (bound : Bound) (before : List EraDef) (d : EraDef)
    (rest : List EraDef) (eras : List Era) :
    erasFrom? bound before (d :: rest) = .ok eras ↔
      ∃ y later, origin? bound before d = .ok y ∧ erasFrom? bound (d :: before) rest = .ok later ∧
        eras = rowOf before d rest y :: later := by
  rw [erasFrom?, bind_eq_ok_iff]
  simp only [bind_eq_ok_iff, pure_eq_ok_iff]
  constructor
  · rintro ⟨y, hy, later, hlater, heras⟩
    exact ⟨y, later, hy, hlater, heras.symm⟩
  · rintro ⟨y, later, hy, hlater, heras⟩
    exact ⟨y, hy, later, hlater, heras.symm⟩

theorem startsWithin_rowOf {bound : Bound} {before : List EraDef} {d : EraDef} {y : Int}
    (hy : origin? bound before d = .ok y) (rest : List EraDef) :
    (rowOf before d rest y).StartsWithin bound := by
  intro t ht
  have ht : d.since = some t := ht
  obtain ⟨-, ⟨hnone, -⟩ | ⟨u, hu, hfault, rfl⟩⟩ := (origin?_eq_ok_iff bound before d y).mp hy
  · rw [hnone] at ht
    cases ht
  · have hut : u = t := Option.some.inj (hu.symm.trans ht)
    subst hut
    obtain ⟨hmidnight, -, hbound, -⟩ := (startFault?_eq_none_iff bound before d u).mp hfault
    exact ⟨hmidnight, hbound, rfl⟩

theorem starts_after_head {bound : Bound} {before : List EraDef} {d p : EraDef} {y : Int}
    (hy : origin? bound before d = .ok y) (hp : p ∈ before.head?) :
    ∃ t, d.since = some t ∧ ∀ s, p.since = some s → s < t := by
  obtain ⟨-, ⟨-, hfirst, -⟩ | ⟨t, ht, hfault, -⟩⟩ := (origin?_eq_ok_iff bound before d y).mp hy
  · rw [hfirst] at hp
    cases hp
  · exact ⟨t, ht, ((startFault?_eq_none_iff bound before d t).mp hfault).2.1 p hp⟩

/-! ## All definitions -/

/-- The eras `eras` continue a table after the definitions `before`, the latest of them first. -/
structure RunsOn (bound : Bound) (before : List EraDef) (eras : List Era) : Prop where
  name_new : ∀ e ∈ eras, e.name ∉ before.map EraDef.name
  names_nodup : (eras.map Era.name).Nodup
  index_eq : ∀ (i : Nat) (e : Era), eras[i]? = some e → e.index = before.length + i
  isOpen_iff : ∀ (i : Nat) (e : Era), eras[i]? = some e → (e.isOpen = true ↔ i + 1 = eras.length)
  startsWithin : ∀ e ∈ eras, e.StartsWithin bound
  after : ∀ p ∈ before.head?, ∀ e ∈ eras, ∃ t, e.since = some t ∧ ∀ s, p.since = some s → s < t
  precedes : eras.Pairwise Era.Precedes

theorem RunsOn.nil (bound : Bound) (before : List EraDef) : RunsOn bound before [] where
  name_new := by simp
  names_nodup := by simp
  index_eq := by simp
  isOpen_iff := by simp
  startsWithin := by simp
  after := by simp
  precedes := List.Pairwise.nil

/-- An accepted definition in front keeps the invariant. -/
theorem RunsOn.cons {bound : Bound} {before : List EraDef} {d : EraDef} {rest : List EraDef}
    {y : Int} {later : List Era} (hy : origin? bound before d = .ok y)
    (hlength : later.length = rest.length) (hlater : RunsOn bound (d :: before) later) :
    RunsOn bound before (rowOf before d rest y :: later) := by
  have hname := ((origin?_eq_ok_iff bound before d y).mp hy).1
  have hafter : ∀ e ∈ later, ∃ t, e.since = some t ∧ ∀ s, d.since = some s → s < t :=
    hlater.after d (by simp)
  refine
    { name_new := ?new, names_nodup := ?nodup, index_eq := ?index, isOpen_iff := ?isOpen
      startsWithin := ?starts, after := ?after, precedes := ?precedes }
  case new =>
    intro e he
    rcases List.mem_cons.mp he with rfl | he
    · exact hname
    · exact fun hmem => hlater.name_new e he (List.mem_cons_of_mem _ hmem)
  case nodup =>
    rw [List.map_cons, List.nodup_cons]
    refine ⟨?_, hlater.names_nodup⟩
    intro hmem
    obtain ⟨e, he, heq⟩ := List.mem_map.mp hmem
    exact hlater.name_new e he (by rw [heq]; exact List.mem_cons_self)
  case index =>
    intro i e he
    cases i with
    | zero =>
        rw [List.getElem?_cons_zero, Option.some.injEq] at he
        subst he
        show (before.length : Int) = before.length + (0 : Nat)
        omega
    | succ i =>
        have := hlater.index_eq i e (by simpa using he)
        rw [List.length_cons] at this
        omega
  case isOpen =>
    intro i e he
    rw [List.length_cons]
    cases i with
    | zero =>
        -- The era is open when no definition is left, and then no era follows it.
        rw [List.getElem?_cons_zero, Option.some.injEq] at he
        subst he
        show rest.isEmpty = true ↔ _
        rw [List.isEmpty_iff_length_eq_zero, hlength]
        omega
    | succ i =>
        rw [hlater.isOpen_iff i e (by simpa using he)]
        omega
  case starts =>
    intro e he
    rcases List.mem_cons.mp he with rfl | he
    · exact startsWithin_rowOf hy rest
    · exact hlater.startsWithin e he
  case after =>
    intro p hp e he
    obtain ⟨t, ht, horder⟩ := starts_after_head hy hp
    rcases List.mem_cons.mp he with rfl | he
    · exact ⟨t, ht, horder⟩
    · -- Only neighbours are compared: `p` is before `d`, and `d` before the later eras.
      obtain ⟨u, hu, hlt⟩ := hafter e he
      exact ⟨u, hu, fun s hs => Int.lt_trans (horder s hs) (hlt t ht)⟩
  case precedes => exact List.pairwise_cons.mpr ⟨hafter, hlater.precedes⟩

theorem length_erasFrom? {bound : Bound} {before rest : List EraDef} {eras : List Era}
    (h : erasFrom? bound before rest = .ok eras) : eras.length = rest.length := by
  induction rest generalizing before eras with
  | nil =>
      cases h
      rfl
  | cons d rest ih =>
      obtain ⟨y, later, -, hlater, rfl⟩ := (erasFrom?_cons_eq_ok_iff bound before d rest eras).mp h
      rw [List.length_cons, List.length_cons, ih hlater]

theorem runsOn_of_erasFrom? {bound : Bound} {before rest : List EraDef} {eras : List Era}
    (h : erasFrom? bound before rest = .ok eras) : RunsOn bound before eras := by
  induction rest generalizing before eras with
  | nil =>
      cases h
      exact RunsOn.nil bound before
  | cons d rest ih =>
      obtain ⟨y, later, hy, hlater, rfl⟩ := (erasFrom?_cons_eq_ok_iff bound before d rest eras).mp h
      exact RunsOn.cons hy (length_erasFrom? hlater) (ih hlater)

/-! ## The table -/

/-- The eras of a table follow each other and fill it from its first position to its last. -/
structure IsOrdered (table : EraTable) : Prop where
  names_nodup : (table.eras.map Era.name).Nodup
  index_eq : ∀ (i : Nat) (e : Era), table.eras[i]? = some e → e.index = i
  isOpen_iff : ∀ (i : Nat) (e : Era), table.eras[i]? = some e →
    (e.isOpen = true ↔ i + 1 = table.eras.length)
  startsWithin : ∀ e ∈ table.eras, e.StartsWithin table.bound
  precedes : table.eras.Pairwise Era.Precedes

theorem isOrdered_of_ofDefs? {bound : Bound} {defs : List EraDef} {table : EraTable}
    (h : ofDefs? bound defs = .ok table) : table.IsOrdered ∧ table.bound = bound := by
  unfold ofDefs? at h
  cases heras : erasFrom? bound [] defs with
  | error fault =>
      rw [heras] at h
      cases h
  | ok eras =>
      have hruns := runsOn_of_erasFrom? heras
      rw [heras] at h
      cases eras with
      | nil => cases h
      | cons first later =>
          cases h
          refine ⟨⟨hruns.names_nodup, ?_, hruns.isOpen_iff, hruns.startsWithin, hruns.precedes⟩,
            rfl⟩
          intro i e he
          have := hruns.index_eq i e he
          simpa using this

end EraTable

end EraChronology
