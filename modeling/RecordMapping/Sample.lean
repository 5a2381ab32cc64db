import RecordMapping.Declaration.Types
/-!
A small domain: people and vendors, books, notifications, shapes, and types that use every way to
declare a field.
-/
namespace RecordMapping.Sample

open RecordMapping.Declaration

private def flag (word : String) : Marker := ⟨word, none⟩

private def named (name : String) : Marker := ⟨"name", some name⟩

private def field (name type : String) (markers : List Marker) : FieldDeclaration :=
  ⟨name, TypeExpr.parse type, markers⟩

private def plain (name type : String) : FieldDeclaration :=
  field name type []

private def declare (name : String) (markers : List Marker) (fields : List FieldDeclaration) :
    StructDeclaration :=
  ⟨name, fields, markers, .fields, ""⟩

private def subtype (name root value : String) (fields : List FieldDeclaration) :
    StructDeclaration :=
  declare name [⟨"extends", some root⟩, ⟨"discriminator", some value⟩] fields

private def root (name : String) (markers : List Marker) (variants : List (String × String)) :
    RootDeclaration :=
  ⟨name, variants.map fun (variant, type) => ⟨variant, "(" ++ type ++ ")"⟩,
    markers, .variants⟩

def roots : List RootDeclaration := [
  root "Notification" [⟨"discriminator", some "type"⟩]
    [("Email", "EmailNotification"), ("Sms", "SmsNotification")],
  root "Shape" [] [("Circle", "Circle"), ("Square", "Square")],
  root "Clash" [⟨"collection", some "Notification"⟩, ⟨"discriminator", some "kind"⟩]
    [("Item", "Item")],
  root "People" [⟨"collection", some "Person"⟩] [("Node", "Node"), ("Point", "Point")]]

def structs : List StructDeclaration := [
  declare "Person" [] [
    field "id" "u64" [flag "id"],
    plain "name" "String",
    plain "age" "Option<u32>",
    field "email" "Option<String>" [named "mail"],
    plain "tags" "Vec<String>",
    field "address" "Option<Address>" [flag "embedded"]],
  declare "Address" [] [plain "street" "String", plain "city" "String"],
  declare "Vendor" [named "vendors"] [
    field "id" "String" [flag "id"],
    plain "name" "String",
    field "address" "Option<Address>" [flag "embedded", flag "flatten"],
    field "owner" "Option<Person>" [flag "entity"],
    field "items" "Vec<Item>" [flag "embedded"],
    field "cached_total" "u64" [flag "skip"]],
  declare "Item" [] [plain "sku" "String", plain "quantity" "u32"],
  subtype "EmailNotification" "Notification" "Email" [
    field "id" "u64" [flag "id"], plain "name" "String", plain "email" "String"],
  subtype "SmsNotification" "Notification" "SMS" [
    field "id" "u64" [flag "id"], plain "name" "String", plain "phone" "String"],
  declare "Book" [named "books"] [
    field "isbn" "String" [flag "id"],
    plain "title" "String",
    plain "author" "String",
    plain "year" "u32",
    field "pages" "Option<u32>" [named "page_count"],
    field "publisher" "Option<Publisher>" [flag "embedded"]],
  declare "Publisher" [] [plain "name" "String", plain "city" "String"],
  subtype "Circle" "Shape" "Circle" [
    field "id" "u64" [flag "id"],
    plain "radius" "f64",
    field "style" "Option<Style>" [flag "embedded", flag "flatten"]],
  subtype "Square" "Shape" "square" [
    field "id" "u64" [flag "id"],
    plain "side" "f64",
    field "corners" "Vec<Point>" [flag "embedded"]],
  declare "Style" [] [plain "stroke" "String", plain "fill" "Option<String>"],
  declare "Point" [] [plain "x" "i64", plain "y" "i64"],
  declare "Scalars" [] [
    plain "flag" "bool",
    plain "tiny" "i8",
    plain "small" "i16",
    plain "medium" "i32",
    plain "large" "i64",
    plain "byte" "u8",
    plain "word" "u16",
    plain "dword" "u32",
    plain "qword" "u64",
    plain "single" "f32",
    plain "double" "f64",
    plain "text" "String",
    plain "opt_flag" "Option<bool>",
    plain "opt_int" "Option<i32>",
    plain "opt_double" "Option<f64>",
    plain "ints" "Vec<i32>",
    plain "matrix" "Vec<Vec<u8>>",
    plain "opt_list" "Option<Vec<String>>",
    plain "sparse" "Vec<Option<i64>>",
    field "raw" "Value" [named "any"]],
  declare "Deep" [] [
    field "label" "Option<String>" [named "deep_label"],
    field "origin" "Option<Point>" [flag "embedded"]],
  declare "Flat" [] [
    plain "depth" "i32",
    field "deep" "Option<Deep>" [flag "embedded", flag "flatten"]],
  declare "Outer" [named "outer_things"] [
    field "key" "i64" [flag "id", named "_id"],
    field "inner" "Point" [flag "embedded", named "in"],
    field "flat" "Flat" [flag "embedded", flag "flatten"],
    field "boxed" "Option<Style>" [flag "embedded", flag "nested"],
    field "notice" "Option<SmsNotification>" [flag "entity", named "msg"],
    field "item" "Item" [flag "entity"],
    field "people" "Vec<Person>" [flag "entity"]],
  declare "Node" [] [field "name" "String" [flag "id"],
    field "children" "Vec<Node>" [flag "entity"]],
  declare "Blank" [] []]

def home : String := "domain"

def schema : Schema :=
  (schema? home roots structs).getD ⟨[], []⟩

end RecordMapping.Sample
