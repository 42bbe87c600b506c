/-!
# Timestamps

A moment is a number of milliseconds since the epoch.  Stored numbers outside the
range of the calendar stand for the epoch itself.
-/

namespace AudioCatalog

/-- Milliseconds since the epoch. -/
abbrev Timestamp := Int

/-- The first and last moment of the calendar. -/
def calendarRange : Int × Int := (-8334601228800000, 8210266876799999)

/-- The moment that a stored number stands for. -/
def Timestamp.ofStored (millis : Int) : Timestamp :=
  if calendarRange.1 ≤ millis ∧ millis ≤ calendarRange.2 then millis else 0

end AudioCatalog
