import DiagramShare.Log

/-!
Changes of the database's layout, each named by its time. A database keeps the names of the changes
that it has, so that each is made once.
-/
namespace DiagramShare.Repository

def migrations : List String := ["20240601000000"]

def pending (done : List String) : List String := migrations.filter fun m => !done.contains m

def migrate (done : List String) : List String × List LogRecord :=
  (done ++ pending done, (pending done).map fun m => ⟨.info, s!"Applied migration {m}"⟩)

theorem pending_migrate (done : List String) : pending (migrate done).1 = [] := by
  simp only [pending, migrate, List.filter_eq_nil_iff]
  intro m hm
  by_cases h : m ∈ done <;> simp [h, hm]

end DiagramShare.Repository
