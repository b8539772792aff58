import CreationGate.SortedMap
import CreationGate.Bytes.Fixed

/-!
# Byte stores

A byte store maps byte strings to byte strings and lists its keys in byte order.  The keys
that share a start are read off one stretch of that order.
-/

namespace CreationGate

/-- A store of byte values under byte keys. -/
abbrev ByteStore := SortedMap Bytes Bytes

namespace ByteStore

/-- The keys that begin with `start`, ascending: the stretch of keys from `start` on, up to
the first that begins otherwise. -/
def keysFrom (store : ByteStore) (start : Bytes) : List Bytes :=
  (store.keys.dropWhile fun key => compare key start == .lt).takeWhile fun key =>
    start.isPrefixOf key

end ByteStore

end CreationGate
