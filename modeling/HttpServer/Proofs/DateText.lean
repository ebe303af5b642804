import HttpServer.Date

/-!
# What a date says

The calendar day of a second and its time of that day are written with a fixed number of characters each, the year
apart, which stands in the middle.  So a text is the text of one second only (`eq_of_dateText`).  Behind this stands
that days are counted back from the calendar (`CivilDay.toDays_ofDays`).
-/

namespace HttpServer

/-! ## Counting days -/

attribute [ext] CivilDay

namespace CivilDay

/-- The number of days from the first of January 1970 to a later calendar day. -/
def toDays (date : CivilDay) : Nat :=
  let year := if date.month ≤ 2 then date.year - 1 else date.year
  let monthOfYear := if date.month ≤ 2 then date.month + 9 else date.month - 3
  let dayOfYear := (153 * monthOfYear + 2) / 5 + date.day - 1
  let yearOfCycle := year % 400
  year / 400 * 146097 + (365 * yearOfCycle + yearOfCycle / 4 - yearOfCycle / 100) + dayOfYear - 719468

section Days

variable {n : Nat}

/-- A cycle has 400 years, and a year has 366 days at most. -/
theorem yearOfCycle_spec (h : n < 146097) :
    let year := (n - n / 1460 + n / 36524 - n / 146096) / 365
    year < 400 ∧ 365 * year + year / 4 - year / 100 ≤ n ∧ n - (365 * year + year / 4 - year / 100) < 366 := by
  intro year
  have hCount : n - n / 1460 + n / 36524 - n / 146096 + n / 1460 + n / 146096 = n + n / 36524 := by omega
  have hYear := Nat.div_add_mod (n - n / 1460 + n / 36524 - n / 146096) 365
  have hRest := Nat.mod_lt (n - n / 1460 + n / 36524 - n / 146096) (show 0 < 365 by decide)
  change 365 * year + _ = _ at hYear
  generalize n - n / 1460 + n / 36524 - n / 146096 = m at hCount hYear hRest
  clear_value year
  -- The centuries say how many leap days are left out; between them the count is linear.
  have hCentury : n / 36524 = 0 ∨ n / 36524 = 1 ∨ n / 36524 = 2 ∨ n / 36524 = 3 ∨ n / 36524 = 4 := by omega
  have hHundred : year / 100 = 0 ∨ year / 100 = 1 ∨ year / 100 = 2 ∨ year / 100 = 3 ∨ year / 100 = 4 := by omega
  rcases hCentury with h | h | h | h | h <;> rw [h] at hCount <;>
    rcases hHundred with h' | h' | h' | h' | h' <;> rw [h'] <;> omega

/-- In a count from March the months begin at these days. -/
theorem monthOfYear_spec (h : n < 366) :
    let month := (5 * n + 2) / 153
    month < 12 ∧ (153 * month + 2) / 5 ≤ n ∧ n - (153 * month + 2) / 5 < 31 := by
  intro month
  omega

/-- A day that is given by its cycle, and by its year and month in a count from March. -/
theorem toDays_ofMarch {cycle year month day number : Nat} (hYear : year < 400) (hMonth : month < 12)
    (hNumber : number = if month < 10 then month + 3 else month - 9) :
    toDays { year := year + cycle * 400 + (if number ≤ 2 then 1 else 0), month := number, day := day + 1 } =
      cycle * 146097 + (365 * year + year / 4 - year / 100) + ((153 * month + 2) / 5 + day) - 719468 := by
  have hCycle : (year + cycle * 400) % 400 = year ∧ (year + cycle * 400) / 400 = cycle := by omega
  have hDay : (153 * month + 2) / 5 + (day + 1) - 1 = (153 * month + 2) / 5 + day := by omega
  by_cases hSpring : month < 10
  · rw [if_pos hSpring] at hNumber
    have hLate : ¬number ≤ 2 := by omega
    have hBack : number - 3 = month := by omega
    unfold toDays
    dsimp only
    rw [if_neg hLate, if_neg hLate, if_neg hLate, Nat.add_zero, hCycle.1, hCycle.2, hBack, hDay]
  · rw [if_neg hSpring] at hNumber
    have hEarly : number ≤ 2 := by omega
    have hBack : number + 9 = month := by omega
    have hNext : year + cycle * 400 + 1 - 1 = year + cycle * 400 := by omega
    unfold toDays
    dsimp only
    rw [if_pos hEarly, if_pos hEarly, if_pos hEarly, hNext, hCycle.1, hCycle.2, hBack, hDay]

theorem toDays_ofDays (days : Nat) : (ofDays days).toDays = days := by
  have hShift := Nat.div_add_mod (days + 719468) 146097
  have hCycle := Nat.mod_lt (days + 719468) (show 0 < 146097 by decide)
  obtain ⟨hYear, hStart, hDay⟩ := yearOfCycle_spec hCycle
  obtain ⟨hMonth, hFirst, hLast⟩ := monthOfYear_spec hDay
  refine (toDays_ofMarch hYear hMonth rfl).trans ?_
  omega
/-- The months are counted from one to twelve, and the days of a month from one. -/
theorem bounds_ofDays (days : Nat) :
    (1 ≤ (ofDays days).month ∧ (ofDays days).month ≤ 12) ∧ 1 ≤ (ofDays days).day ∧ (ofDays days).day ≤ 31 := by
  have hCycle := Nat.mod_lt (days + 719468) (show 0 < 146097 by decide)
  obtain ⟨-, -, hDay⟩ := yearOfCycle_spec hCycle
  obtain ⟨hMonth, -, hLast⟩ := monthOfYear_spec hDay
  refine ⟨?_, Nat.le_add_left _ _, hLast⟩
  unfold ofDays
  dsimp only
  split
  · omega
  · omega

end Days

end CivilDay
/-! ## Parts of a fixed width -/

theorem length_weekdayName (days : Nat) : (weekdayName days).toList.length = 3 := by
  unfold weekdayName
  split <;> rfl

theorem length_monthName (month : Nat) : (monthName month).toList.length = 3 := by
  unfold monthName
  split <;> rfl

/-- The months of a year have different names. -/
theorem monthName_inj {a b : Nat} (ha : 1 ≤ a ∧ a ≤ 12) (hb : 1 ≤ b ∧ b ≤ 12) (h : monthName a = monthName b) :
    a = b := by
  have hNames : ∀ a < 13, ∀ b < 13, 1 ≤ a → 1 ≤ b → monthName a = monthName b → a = b := by decide
  exact hNames a (by omega) b (by omega) ha.1 hb.1 h

section Digits

variable {a b n : Nat}

theorem decimal_inj (h : decimal a = decimal b) : a = b := by
  rw [← ofDigitChars_decimal a, h, ofDigitChars_decimal]

theorem ofDigitChars_twoDigits (n : Nat) : Nat.ofDigitChars 10 (twoDigits n).toList 0 = n := by
  unfold twoDigits
  split
  · have hZero : ("0" ++ String.ofList (decimal n)).toList = '0' :: decimal n := by simp
    rw [hZero, Nat.ofDigitChars_cons]
    exact ofDigitChars_decimal n
  · rw [String.toList_ofList, ofDigitChars_decimal]

theorem length_twoDigits (h : n < 100) : (twoDigits n).toList.length = 2 := by
  have hAll : ∀ n < 100, (twoDigits n).toList.length = 2 := by decide
  exact hAll n h

/-- Two digits are split off the front of whatever follows them. -/
theorem twoDigits_append_inj {s t : List Char} (ha : a < 100) (hb : b < 100)
    (h : (twoDigits a).toList ++ s = (twoDigits b).toList ++ t) : a = b ∧ s = t := by
  obtain ⟨hDigits, hRest⟩ := List.append_inj h (by rw [length_twoDigits ha, length_twoDigits hb])
  refine ⟨?_, hRest⟩
  rw [← ofDigitChars_twoDigits a, hDigits, ofDigitChars_twoDigits]

end Digits

/-! ## The text of a second -/

/-- From 1970 up to the end of 9999 every second has a text, and no other one has. -/
theorem exists_dateText_iff {seconds : Int} :
    (∃ text, dateText? seconds = some text) ↔ 0 ≤ seconds ∧ seconds < dateEnd := by
  unfold dateText?
  split
  · simp only [reduceCtorEq, exists_false, false_iff]
    omega
  · simp only [Option.some.injEq, exists_eq', true_iff]
    omega

section Texts

variable {a b : Nat}

/-- What stands in front of the year. -/
def dayChars (days : Nat) : List Char :=
  (weekdayName days).toList ++ (", ".toList ++ ((twoDigits (CivilDay.ofDays days).day).toList ++
    (" ".toList ++ ((monthName (CivilDay.ofDays days).month).toList ++ " ".toList))))

/-- What stands behind the year. -/
def clockChars (clock : Nat) : List Char :=
  " ".toList ++ ((twoDigits (clock / 3600)).toList ++ (":".toList ++ ((twoDigits (clock / 60 % 60)).toList ++
    (":".toList ++ ((twoDigits (clock % 60)).toList ++ " GMT".toList)))))

/-- A text is written in these three parts. -/
theorem exists_of_dateText {seconds : Int} {text : String} (h : dateText? seconds = some text) :
    ∃ n : Nat, seconds = n ∧
      text.toList = dayChars (n / 86400) ++ (decimal (CivilDay.ofDays (n / 86400)).year ++ clockChars (n % 86400)) := by
  unfold dateText? at h
  split at h
  · cases h
  · rename_i hRange
    refine ⟨seconds.toNat, by omega, ?_⟩
    rw [← Option.some.inj h]
    simp only [dayChars, clockChars, String.toList_append, String.toList_ofList, List.append_assoc]

theorem length_dayChars (days : Nat) : (dayChars days).length = 12 := by
  have hDay : (CivilDay.ofDays days).day < 100 := by
    have hBounds := CivilDay.bounds_ofDays days
    omega
  simp only [dayChars, List.length_append, length_weekdayName, length_monthName, length_twoDigits hDay]
  rfl

theorem length_clockChars (h : a < 86400) : (clockChars a).length = 13 := by
  simp only [clockChars, List.length_append, length_twoDigits (show a / 3600 < 100 by omega),
    length_twoDigits (show a / 60 % 60 < 100 by omega), length_twoDigits (show a % 60 < 100 by omega)]
  rfl

/-- In front of the year stand the day of the month and the month. -/
theorem dayChars_inj (h : dayChars a = dayChars b) :
    (CivilDay.ofDays a).day = (CivilDay.ofDays b).day ∧ (CivilDay.ofDays a).month = (CivilDay.ofDays b).month := by
  have ha := CivilDay.bounds_ofDays a
  have hb := CivilDay.bounds_ofDays b
  obtain ⟨-, h⟩ := List.append_inj h (by rw [length_weekdayName, length_weekdayName])
  obtain ⟨-, h⟩ := List.append_inj h rfl
  obtain ⟨hDay, h⟩ := twoDigits_append_inj (by omega) (by omega) h
  obtain ⟨-, h⟩ := List.append_inj h rfl
  obtain ⟨hMonth, -⟩ := List.append_inj h (by rw [length_monthName, length_monthName])
  exact ⟨hDay, monthName_inj ha.1 hb.1 (String.toList_inj.mp hMonth)⟩

/-- Behind it stands the time of the day. -/
theorem clockChars_inj (ha : a < 86400) (hb : b < 86400) (h : clockChars a = clockChars b) : a = b := by
  obtain ⟨-, h⟩ := List.append_inj h rfl
  obtain ⟨hHours, h⟩ := twoDigits_append_inj (by omega) (by omega) h
  obtain ⟨-, h⟩ := List.append_inj h rfl
  obtain ⟨hMinutes, h⟩ := twoDigits_append_inj (by omega) (by omega) h
  obtain ⟨-, h⟩ := List.append_inj h rfl
  obtain ⟨hSeconds, -⟩ := twoDigits_append_inj (by omega) (by omega) h
  omega

/-- A text is the text of one second only. -/
theorem eq_of_dateText {s t : Int} {text : String} (hs : dateText? s = some text) (ht : dateText? t = some text) :
    s = t := by
  obtain ⟨n, rfl, hn⟩ := exists_of_dateText hs
  obtain ⟨m, rfl, hm⟩ := exists_of_dateText ht
  have hnClock : n % 86400 < 86400 := Nat.mod_lt _ (by decide)
  have hmClock : m % 86400 < 86400 := Nat.mod_lt _ (by decide)
  obtain ⟨hFront, hRest⟩ := List.append_inj (hn.symm.trans hm) (by rw [length_dayChars, length_dayChars])
  obtain ⟨hYear, hBack⟩ :=
    List.append_inj' hRest (by rw [length_clockChars hnClock, length_clockChars hmClock])
  obtain ⟨hDay, hMonth⟩ := dayChars_inj hFront
  have hDate : CivilDay.ofDays (n / 86400) = CivilDay.ofDays (m / 86400) :=
    CivilDay.ext (decimal_inj hYear) hMonth hDay
  have hDays : n / 86400 = m / 86400 := by
    rw [← CivilDay.toDays_ofDays (n / 86400), hDate, CivilDay.toDays_ofDays]
  have hClock := clockChars_inj hnClock hmClock hBack
  omega

end Texts

/-! ## The characters of a date -/

/-- Letters, digits, and the marks between the parts of a date. -/
def isDateChar (c : Char) : Bool :=
  c.isAlphanum || [' ', ',', ':'].contains c

theorem all_isDateChar_decimal (n : Nat) : (decimal n).all isDateChar = true := by
  rw [List.all_eq_true]
  intro c hc
  have hDigit := isDigit_of_mem_decimal hc
  simp [isDateChar, Char.isAlphanum, hDigit]

theorem all_isDateChar_twoDigits (n : Nat) : (twoDigits n).toList.all isDateChar = true := by
  unfold twoDigits
  split
  · have hZero : isDateChar '0' = true := by decide
    simp [-List.all_eq_true, all_isDateChar_decimal, hZero]
  · rw [String.toList_ofList, all_isDateChar_decimal]

/-- A date is written in these characters alone. -/
theorem all_isDateChar_of_dateText {seconds : Int} {text : String} (h : dateText? seconds = some text) :
    text.toList.all isDateChar = true := by
  have hWeekday : ∀ days, (weekdayName days).toList.all isDateChar = true := by
    intro days
    unfold weekdayName
    split <;> decide
  have hMonth : ∀ month, (monthName month).toList.all isDateChar = true := by
    intro month
    unfold monthName
    split <;> decide
  obtain ⟨n, -, hChars⟩ := exists_of_dateText h
  simp only [hChars, dayChars, clockChars, List.all_append, all_isDateChar_decimal, all_isDateChar_twoDigits, hWeekday,
    hMonth]
  decide

end HttpServer
