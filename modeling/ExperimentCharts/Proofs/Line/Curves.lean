import ExperimentCharts.Line.Data
import ExperimentCharts.Proofs.Table.Columns
import ExperimentCharts.Proofs.Table.Distribution
import Mathlib.Data.Multiset.Sort

namespace ExperimentCharts

open Binary64

instance : IsTrans Binary64 fun x y => x.totalLe y = true := ⟨totalLe_trans⟩

instance : Std.Antisymm fun x y : Binary64 => x.totalLe y = true := ⟨fun _ _ => totalLe_antisymm⟩

instance : Std.Total fun x y : Binary64 => x.totalLe y = true := ⟨fun x y => by simpa using totalLe_total x y⟩

variable {table : Table} {column : String}

end ExperimentCharts
