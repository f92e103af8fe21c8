import PgGrpc.Library.Keyed

/-! `PENDING_FILES`: the staged sources under the names that imports use. -/

namespace PgGrpc
open Library

/-- A map from file names to sources, as its entries in the order of iteration. -/
structure PendingFiles where
  entries : List (String × String)
  distinct : (entries.map Prod.fst).Nodup

namespace PendingFiles

def empty : PendingFiles := ⟨[], List.nodup_nil⟩

def get (files : PendingFiles) (filename : String) : Option String := files.entries.lookup filename

def remove (files : PendingFiles) (filename : String) : PendingFiles where
  entries := files.entries.filter fun entry => entry.1 != filename
  distinct := Keyed.map_filter_nodup Prod.fst files.distinct _

/-- Staging a name again replaces its source. -/
def stageFile (files : PendingFiles) (filename source : String) : PendingFiles where
  entries := (filename, source) :: (files.remove filename).entries
  distinct := by
    refine List.nodup_cons.mpr ⟨?_, (files.remove filename).distinct⟩
    simp [remove]

def list (files : PendingFiles) : List (String × String) := files.entries

/-- Two iterations over the same map. -/
def Same (files other : PendingFiles) : Prop := files.entries.Perm other.entries

@[refl] theorem Same.refl (files : PendingFiles) : files.Same files := List.Perm.refl _

@[symm] theorem Same.symm {files other : PendingFiles} (same : files.Same other) : other.Same files := List.Perm.symm same

instance (files other : PendingFiles) : Decidable (files.Same other) := inferInstanceAs (Decidable (List.Perm _ _))

end PendingFiles
end PgGrpc
