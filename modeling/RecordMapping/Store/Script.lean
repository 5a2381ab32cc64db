import RecordMapping.Store.Basic
/-!
A scripted store: every call takes the next answer prepared for its operation, and gets an empty
one when there are none left.
-/
namespace RecordMapping.Script

/-- The answers still to be given. A prepared insertion may hand back the record it is given. -/
structure State where
  selects : List (Except StoreError (List Record))
  counts : List (Except StoreError UInt64)
  deletes : List (Except StoreError UInt64)
  inserts : List (Except StoreError (Option Record))

def store : Store State where
  select _ s := (s.selects.headD (.ok []), { s with selects := s.selects.tail })
  count _ s := (s.counts.headD (.ok 0), { s with counts := s.counts.tail })
  delete _ s := (s.deletes.headD (.ok 0), { s with deletes := s.deletes.tail })
  insert r s :=
    ((s.inserts.headD (.ok none)).map (·.getD r), { s with inserts := s.inserts.tail })

end RecordMapping.Script
