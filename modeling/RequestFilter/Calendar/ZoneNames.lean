import RequestFilter.Calendar.Zone

/-!
Zones are known by the rules they have followed since 2010. Their names are matched exactly,
capitals included.
-/

namespace RequestFilter.ZoneTable

def minutes (n : Int) : Offset := (Offset.ofSeconds? (n * 60)).getD Offset.zero

def european (ahead : Nat) : SummerTime where
  winter := minutes (60 * ahead)
  summer := minutes (60 * (ahead + 1))
  starts := { month := 3, sunday := .last, hour := ahead + 1 }
  ends := { month := 10, sunday := .last, hour := ahead + 2 }

def newYork : SummerTime where
  winter := minutes (-300)
  summer := minutes (-240)
  starts := { month := 3, sunday := .nth 2, hour := 2 }
  ends := { month := 11, sunday := .nth 1, hour := 2 }

def lordHowe : SummerTime where
  winter := minutes 630
  summer := minutes 660
  starts := { month := 10, sunday := .nth 1, hour := 2 }
  ends := { month := 4, sunday := .nth 1, hour := 2 }

def samoan : SummerTime where
  winter := minutes 780
  summer := minutes 840
  starts := { month := 9, sunday := .last, hour := 3 }
  ends := { month := 4, sunday := .nth 1, hour := 4 }

def hourOf (date : Date) (hour : Fin 24) : Instant :=
  ⟨date, { Time.midnight with second := hour.val * 3600, second_lt := by omega }⟩

def change? (year : Int) (month day : Nat) (hour : Fin 24) (next : Zone) : Option (Instant × Zone) :=
  (Date.ofYmd? year month day).map fun date => (hourOf date hour, next)

/-- The changes of the rule of Samoa, which left out a day when it crossed the date line, and gave
up summer time later. -/
def samoanChanges : List (Instant × Zone) :=
  [change? 2010 9 26 11 (.fixed (minutes (-600))), change? 2011 4 2 14 (.fixed (minutes (-660))),
    change? 2011 9 24 14 (.fixed (minutes (-600))), change? 2011 12 30 10 samoan.zone,
    change? 2021 4 3 14 (.fixed (minutes 780))].filterMap id

def apia : Zone :=
  samoanChanges.foldl (fun zone change => zone.replacedAt change.1 change.2)
    (.fixed (minutes (-660)))

def zones : List (String × Zone) :=
  [("UTC", .fixed .zero), ("Etc/UTC", .fixed .zero), ("GMT", .fixed .zero),
    ("Etc/GMT+5", .fixed (minutes (-300))), ("Etc/GMT-14", .fixed (minutes 840)),
    ("Asia/Kolkata", .fixed (minutes 330)), ("Asia/Kathmandu", .fixed (minutes 345)),
    ("Asia/Tokyo", .fixed (minutes 540)),
    ("Europe/Paris", (european 1).zone), ("Europe/London", (european 0).zone),
    ("America/New_York", newYork.zone), ("Australia/Lord_Howe", lordHowe.zone),
    ("Pacific/Apia", apia)]

def standard : ZoneTable := fun name => zones.lookup (String.ofList name)

end RequestFilter.ZoneTable
