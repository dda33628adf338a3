import AppXd.Nanopb.Format

/-!
# The messages of activation and route

The descriptors of the requests and the responses.
-/

namespace AppXd.Nanopb

def activeReq : List (Field FieldType) :=
  [⟨1, .string⟩, ⟨2, .string⟩, ⟨3, .varint 8⟩, ⟨4, .string⟩, ⟨5, .string⟩]

def activeRspData : List (Field FieldType) :=
  [⟨1, .string⟩, ⟨2, .string⟩, ⟨3, .varint 8⟩, ⟨4, .string⟩, ⟨5, .string⟩]

def activeRsp : List (Field FieldType) :=
  [⟨1, .bool⟩, ⟨2, .varint 2⟩, ⟨3, .string⟩, ⟨4, .message activeRspData⟩]

def activeConfirmReq : List (Field FieldType) :=
  [⟨1, .string⟩, ⟨2, .varint 8⟩, ⟨3, .string⟩, ⟨4, .string⟩]

def activeConfirmRsp : List (Field FieldType) := [⟨1, .bool⟩, ⟨2, .varint 2⟩, ⟨3, .string⟩]

def routeReq : List (Field FieldType) :=
  [⟨1, .string⟩, ⟨2, .varint 8⟩, ⟨3, .string⟩, ⟨4, .string⟩, ⟨5, .string⟩]

def routeData : List (Field FieldType) :=
  [⟨1, .string⟩, ⟨2, .varint 8⟩, ⟨3, .string⟩, ⟨4, .varint 2⟩, ⟨5, .varint 1⟩, ⟨6, .varint 2⟩]

def routeRsp : List (Field FieldType) :=
  [⟨1, .bool⟩, ⟨2, .varint 2⟩, ⟨3, .string⟩, ⟨4, .message routeData⟩]

/-- All messages of `route_pb.h`. -/
theorem routePb_wellFormed : ∀ fields ∈ [activeReq, activeRspData, activeRsp, activeConfirmReq,
    activeConfirmRsp, routeReq, routeData, routeRsp], wellFormed fields = true := by
  decide

end AppXd.Nanopb
