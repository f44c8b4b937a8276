import M2eBridge.Database.Authbundle

/-!
# Converters

`ConverterTable::get`, which reads a converter the way the bundles are read.
-/

namespace M2eBridge

structure Converter where
  id : Bytes
  code : Bytes
  description : Bytes
  deriving DecidableEq

namespace ConverterTable

def getSql : Bytes := bytesOf "SELECT id, code, description FROM converters WHERE id = ?;"

def ofRow (columns : List (Option Bytes)) : Converter :=
  let column := fun k => Sqlite.getString (columns[k]?).join
  { id := column 0, code := column 1, description := column 2 }

def get (o : SqliteOutcomes) (converterId : Bytes) : Except Exn (Option Converter) × Sqlite :=
  Sqlite.getRow o getSql ofRow 3 converterId {}

end ConverterTable

end M2eBridge
