import EraChronology.Proofs.Calendar.RoundTrip
import EraChronology.Proofs.Registry

set_option autoImplicit false

/-! # Which calendar answers for a date

A date carries the identity of the calendar it comes from, and not the name that calendar is
registered under. When no calendar is named, the one under the name in the identity is asked
(`Almanac.calendarFor`). Both are the same calendar as long as every calendar is registered under
its own name, and they may differ otherwise.

A registration puts one calendar under one name (`find?_register`), so after any history each name
has the calendar that was registered last, or else the built-in one (`find?_registerAll`). From
this it can be read off when a date is answered for by its own calendar
(`follows_iff`).
-/

namespace EraChronology

/-- A calendar, the name it is registered under, and whether a name that is taken is given away. -/
structure Registration where
  name : String
  calendar : Calendar
  overwrite : Bool

def Registration.latest? : List Registration → String → Option Calendar
  | [], _ => none
  | r :: later, name => (latest? later name).or (if r.name = name then some r.calendar else none)

/-- The calendar `b` answers every question about the date `d` as the calendar `c` does. -/
structure Calendar.AnswersAs (b c : Calendar) (d : EraDate) : Prop where
  toInstant : ∀ offset, b.toInstant d offset = c.toInstant d offset
  fieldRange : ∀ field, b.fieldRangeNamed d field = c.fieldRangeNamed d field
  get : ∀ field, b.getNamed d field = c.getNamed d field
  set : ∀ field v, b.setNamed d field v = c.setNamed d field v
  add : ∀ field amount, b.addNamed d field amount = c.addNamed d field amount
  explain : b.explain d = c.explain d

theorem Calendar.AnswersAs.refl (c : Calendar) (d : EraDate) : c.AnswersAs c d :=
  ⟨fun _ => rfl, fun _ => rfl, fun _ => rfl, fun _ _ => rfl, fun _ _ => rfl, rfl⟩

namespace Almanac

variable {a b : Almanac} {history : List Registration} {c c' : Calendar} {d : EraDate}
  {k name : String} {overwrite : Bool} {t offset : Int}

def registerAll (a : Almanac) (history : List Registration) : Except Error Almanac :=
  history.foldlM (fun a r => a.register r.name r.calendar r.overwrite) a

def find? (a : Almanac) (name : String) : Option Calendar := a.registry.bind (·.find? name)

def IsOwnNamed (a : Almanac) : Prop := ∀ k c, a.find? k = some c → c.id.name = k

/-- What is asked about the date `d` without naming a calendar is answered as if the calendar
`name` was asked. -/
structure Follows (a : Almanac) (d : EraDate) (name : String) : Prop where
  toInstant : ∀ offset, a.toInstant d offset none = a.toInstant d offset (some name)
  fieldRange : ∀ field, a.fieldRange d field none = a.fieldRange d field (some name)
  get : ∀ field, a.get d field none = a.get d field (some name)
  set : ∀ field v, a.set d field v none = a.set d field v (some name)
  add : ∀ field amount, a.add d field amount none = a.add d field amount (some name)
  explain : a.explain d none = a.explain d (some name)

/-! ## Registering -/

theorem calendar?_eq_ok_iff : a.calendar? k = .ok c ↔ a.find? k = some c := by
  unfold calendar? registry? find? Registry.calendar?
  cases a.registry with
  | none => simp [bind, Except.bind]
  | some r =>
      simp only [bind, Except.bind, Option.bind]
      cases r.find? k <;> simp

theorem find?_register (h : a.register name c overwrite = .ok b) (k : String) :
    b.find? k = if name = k then some c else a.find? k := by
  obtain ⟨r, hr, h⟩ := bind_eq_ok_iff.mp h
  obtain ⟨r', hr', h⟩ := bind_eq_ok_iff.mp h
  rw [pure_eq_ok_iff] at h
  subst h
  have hregistry : a.registry = some r := by
    unfold registry? at hr
    cases hsome : a.registry with
    | none =>
        rw [hsome] at hr
        cases hr
    | some r₀ =>
        rw [hsome] at hr
        cases hr
        rfl
  obtain ⟨-, hinsert⟩ := ite_error_eq_ok_iff.mp hr'
  cases hinsert
  show (r.insert name c).find? k = _
  rw [Text.NameMap.find?_insert]
  unfold find?
  rw [hregistry]
  rfl

/-- After a history of registrations a name has the calendar that was registered last, or else
what it had before. -/
theorem find?_registerAll (h : a.registerAll history = .ok b) (k : String) :
    b.find? k = (Registration.latest? history k).or (a.find? k) := by
  induction history generalizing a with
  | nil =>
      cases h
      rfl
  | cons r later ih =>
      obtain ⟨middle, hmiddle, h⟩ := bind_eq_ok_iff.mp h
      calc b.find? k
          = (Registration.latest? later k).or (middle.find? k) := ih h
        _ = (Registration.latest? later k).or
              (if r.name = k then some r.calendar else a.find? k) := by
            rw [find?_register hmiddle]
        _ = (Registration.latest? (r :: later) k).or (a.find? k) := by
            rw [Registration.latest?, Option.or_assoc]
            by_cases hname : r.name = k
            · rw [if_pos hname, if_pos hname]
              rfl
            · rw [if_neg hname, if_neg hname]
              rfl

/-- Registering calendars under their own names, however often, leaves no other names behind. -/
theorem IsOwnNamed.registerAll (ha : a.IsOwnNamed) (h : a.registerAll history = .ok b)
    (hhistory : ∀ r ∈ history, r.calendar.id.name = r.name) : b.IsOwnNamed := by
  induction history generalizing a with
  | nil =>
      cases h
      exact ha
  | cons r later ih =>
      obtain ⟨middle, hmiddle, h⟩ := bind_eq_ok_iff.mp h
      refine ih ?_ h fun r' hr' => hhistory r' (List.mem_cons_of_mem _ hr')
      intro k c hc
      rw [find?_register hmiddle k] at hc
      split at hc
      next hname =>
        cases hc
        rw [← hname]
        exact hhistory r List.mem_cons_self
      next => exact ha k c hc

theorem isOwnNamed_builtIn {supplement : String} (h : builtIn? supplement = .ok a) :
    a.IsOwnNamed := by
  obtain ⟨gregorian, preset, japanese, r, hgregorian, hpreset, -, hprolongs, hr, hentries⟩ :=
    Registry.exists_builtIn? supplement
  unfold builtIn? at h
  rw [hr] at h
  cases h
  intro k c hc
  rcases Registry.find?_of_entries hentries hc with ⟨rfl, rfl⟩ | ⟨rfl, rfl⟩
  · obtain ⟨-, -, hid⟩ := Calendar.ofSpec?_eq_ok_iff.mp hgregorian
    rw [hid]
    rfl
  · obtain ⟨-, -, hid⟩ := Calendar.ofSpec?_eq_ok_iff.mp hpreset
    rw [hprolongs.id_eq, hid]
    rfl

/-! ## Asking -/

theorem exists_of_resolve (h : a.resolve name t offset = .ok d) :
    ∃ c, a.find? name = some c ∧ d.calendar = c.id := by
  obtain ⟨c, hc, hd⟩ := bind_eq_ok_iff.mp h
  obtain ⟨-, -, rfl⟩ := Calendar.resolve_eq_ok_iff.mp hd
  exact ⟨c, calendar?_eq_ok_iff.mp hc, rfl⟩

/-- Every question is put to the calendar that is found under the name. -/
theorem follows_iff_of_find? (hname : a.find? name = some c)
    (hown : a.find? d.calendar.name = some c') : a.Follows d name ↔ c'.AnswersAs c d := by
  have hc : a.calendarFor d (some name) = .ok c := calendar?_eq_ok_iff.mpr hname
  have hc' : a.calendarFor d none = .ok c' := calendar?_eq_ok_iff.mpr hown
  have hask {α : Type} (ask : Calendar → Except Error α) :
      a.calendarFor d none >>= ask = a.calendarFor d (some name) >>= ask ↔ ask c' = ask c := by
    rw [hc, hc']
    rfl
  constructor
  · intro h
    exact
      { toInstant := fun offset => (hask _).mp (h.toInstant offset)
        fieldRange := fun field => (hask _).mp (h.fieldRange field)
        get := fun field => (hask _).mp (h.get field)
        set := fun field v => (hask _).mp (h.set field v)
        add := fun field amount => (hask _).mp (h.add field amount)
        explain := (hask _).mp h.explain }
  · intro h
    exact
      { toInstant := fun offset => (hask _).mpr (h.toInstant offset)
        fieldRange := fun field => (hask _).mpr (h.fieldRange field)
        get := fun field => (hask _).mpr (h.get field)
        set := fun field v => (hask _).mpr (h.set field v)
        add := fun field amount => (hask _).mpr (h.add field amount)
        explain := (hask _).mpr h.explain }

/-- With no calendar under the own name every question fails. -/
theorem not_follows_of_find?_eq_none (hname : a.find? name = some c)
    (hown : a.find? d.calendar.name = none) : ¬ a.Follows d name := by
  intro h
  have hera : a.get d "era" (some name) = .ok d.era.index := by
    have hc : a.calendarFor d (some name) = .ok c := calendar?_eq_ok_iff.mpr hname
    unfold get
    rw [hc]
    rfl
  rw [← h.get "era"] at hera
  obtain ⟨c', hc', -⟩ := bind_eq_ok_iff.mp hera
  have hfound : a.find? d.calendar.name = some c' := calendar?_eq_ok_iff.mp hc'
  rw [hown] at hfound
  cases hfound

/-- A date of the calendar under `name` carries the identity of that calendar. What is asked about
it without a name is answered as under `name` exactly when the calendar under the name in the
identity is there and answers so. It is the same calendar, for one thing, if no calendar was
registered under another name than its own. -/
theorem follows_iff {supplement : String} {start : Almanac}
    (hstart : builtIn? supplement = .ok start) (hhistory : start.registerAll history = .ok a)
    (hd : a.resolve name t offset = .ok d) :
    (∀ k, a.find? k = (Registration.latest? history k).or (start.find? k)) ∧
    ∃ c, a.find? name = some c ∧ d.calendar = c.id ∧
      (a.Follows d name ↔ ∃ c', a.find? c.id.name = some c' ∧ c'.AnswersAs c d) ∧
      (a.find? c.id.name = some c → a.Follows d name) ∧
      ((∀ r ∈ history, r.calendar.id.name = r.name) → a.Follows d name) := by
  refine ⟨find?_registerAll hhistory, ?_⟩
  obtain ⟨c, hname, hid⟩ := exists_of_resolve hd
  have hsame : a.find? c.id.name = some c → a.Follows d name := by
    intro hown
    rw [← hid] at hown
    exact (follows_iff_of_find? hname hown).mpr (Calendar.AnswersAs.refl c d)
  refine ⟨c, hname, hid, ⟨?_, ?_⟩, hsame, ?_⟩
  · intro h
    cases hown : a.find? c.id.name with
    | none =>
        rw [← hid] at hown
        exact absurd h (not_follows_of_find?_eq_none hname hown)
    | some c' =>
        rw [← hid] at hown
        exact ⟨c', rfl, (follows_iff_of_find? hname hown).mp h⟩
  · rintro ⟨c', hown, hanswers⟩
    rw [← hid] at hown
    exact (follows_iff_of_find? hname hown).mpr hanswers
  · -- Without a foreign name the calendar is found under its own.
    intro hnamed
    have hownNamed := (isOwnNamed_builtIn hstart).registerAll hhistory hnamed
    apply hsame
    rw [hownNamed name c hname]
    exact hname

/-- The Japanese eras with the weeks of the ISO calendar, as a calendar of its own. -/
def isoWeeks (id : CalendarId) : Spec :=
  { Spec.japanese with id := id, firstDayOfWeek := 2, minimalDays := 4 }

/-- Under its own name the calendar answers for its dates. -/
theorem follows_ownName :
    ∃ start c a d, builtIn? "" = .ok start ∧
      Calendar.ofSpec? (isoWeeks ⟨"imperial", "iso", "1"⟩) = .ok c ∧
      start.registerAll [⟨"iso", c, false⟩] = .ok a ∧
      a.resolve "iso" 1609459200000 0 = .ok d ∧ a.Follows d "iso" ∧
      a.get d "week_of_year" none = .ok 53 := by
  have hfollows {start : Almanac} {c : Calendar} {a : Almanac} {d : EraDate}
      (hstart : builtIn? "" = .ok start)
      (hc : Calendar.ofSpec? (isoWeeks ⟨"imperial", "iso", "1"⟩) = .ok c)
      (ha : start.registerAll [⟨"iso", c, false⟩] = .ok a)
      (hd : a.resolve "iso" 1609459200000 0 = .ok d) : a.Follows d "iso" := by
    obtain ⟨-, c', -, -, -, -, hnamed⟩ := follows_iff hstart ha hd
    obtain ⟨-, -, hid⟩ := Calendar.ofSpec?_eq_ok_iff.mp hc
    apply hnamed
    intro r hr
    rw [List.mem_singleton.mp hr, hid]
    rfl
  exact ⟨_, _, _, _, rfl, rfl, rfl, rfl, hfollows rfl rfl rfl rfl, rfl⟩

/-- With the identity of the Japanese calendar it is answered for by that one, which counts the
first of January 2021 in week 1. -/
theorem not_follows_otherName :
    ∃ start c a d, builtIn? "" = .ok start ∧
      Calendar.ofSpec? (isoWeeks Spec.japanese.id) = .ok c ∧
      start.registerAll [⟨"iso", c, false⟩] = .ok a ∧
      a.resolve "iso" 1609459200000 0 = .ok d ∧
      a.get d "week_of_year" (some "iso") = .ok 53 ∧ a.get d "week_of_year" none = .ok 1 :=
  ⟨_, _, _, _, rfl, rfl, rfl, rfl, rfl, rfl⟩

end Almanac

end EraChronology
