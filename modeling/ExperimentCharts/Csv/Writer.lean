import ExperimentCharts.Csv.Reader

namespace ExperimentCharts.Csv

/-- A field needs quotes if a reader would not take all its bytes as text. -/
def needsQuotes (field : List UInt8) : Bool :=
  field.any fun byte => byte == comma || byte == quote || isBreak byte

/-- The bytes of a field inside quotes: a quote is written twice. -/
def doubleQuotes (field : List UInt8) : List UInt8 :=
  field.flatMap fun byte => if byte = quote then [quote, quote] else [byte]

/-- A field, in quotes if it needs them. -/
def writeField (field : List UInt8) : List UInt8 :=
  if needsQuotes field then quote :: (doubleQuotes field ++ [quote]) else field

/-- A record: its fields between commas, and a line feed at the end. -/
def writeRecord (fields : List (List UInt8)) : List UInt8 :=
  [comma].intercalate (fields.map writeField) ++ [lineFeed]

/-- A file of records of texts. Every record has two fields or more, so that none is an empty line. -/
def write (records : List (List String)) : List UInt8 :=
  records.flatMap fun fields => writeRecord (fields.map Text.encode)

end ExperimentCharts.Csv
