import Panoptikon.Foundation.Sql.Expr

/-!
# Columns

The columns a query can select, match and partition by (`pql/model.rs`), with
the table and name each one is read from (`get_column_expr`, `is_text_column`,
`column_name` of `pql/builder.rs`).
-/

namespace Panoptikon.Pql

open Foundation.Sql

inductive Column where
  | fileId
  | sha256
  | path
  | filename
  | lastModified
  | itemId
  | md5
  | type
  | size
  | width
  | height
  | duration
  | timeAdded
  | audioTracks
  | videoTracks
  | subtitleTracks
  | blurhash
  | outroKind
  | contentEndMs
  | videoCodec
  | audioCodec
  | dataId
  | language
  | languageConfidence
  | text
  | confidence
  | textLength
  | jobId
  | setterId
  | setterName
  | dataIndex
  | sourceId
deriving DecidableEq

inductive EntityType where
  | file
  | text
deriving DecidableEq

def entityToDataType : EntityType → String
  | .file => "file"
  | .text => "text"

namespace Column

def isTextColumn : Column → Bool
  | dataId | language | languageConfidence | text | confidence | textLength | jobId
  | setterId | setterName | dataIndex | sourceId => true
  | _ => false

/-- The table and the column name `get_column_expr` reads. -/
def home : Column → String × String
  | fileId => ("files", "id")
  | sha256 => ("files", "sha256")
  | path => ("files", "path")
  | filename => ("files", "filename")
  | lastModified => ("files", "last_modified")
  | itemId => ("files", "item_id")
  | md5 => ("items", "md5")
  | type => ("items", "type")
  | size => ("items", "size")
  | width => ("items", "width")
  | height => ("items", "height")
  | duration => ("items", "duration")
  | timeAdded => ("items", "time_added")
  | audioTracks => ("items", "audio_tracks")
  | videoTracks => ("items", "video_tracks")
  | subtitleTracks => ("items", "subtitle_tracks")
  | blurhash => ("items", "blurhash")
  | outroKind => ("items", "outro_kind")
  | contentEndMs => ("items", "content_end_ms")
  | videoCodec => ("items", "video_codec")
  | audioCodec => ("items", "audio_codec")
  | dataId => ("item_data", "id")
  | language => ("extracted_text", "language")
  | languageConfidence => ("extracted_text", "language_confidence")
  | text => ("extracted_text", "text")
  | confidence => ("extracted_text", "confidence")
  | textLength => ("extracted_text", "text_length")
  | jobId => ("item_data", "job_id")
  | setterId => ("item_data", "setter_id")
  | setterName => ("setters", "name")
  | dataIndex => ("item_data", "idx")
  | sourceId => ("item_data", "source_id")

def expr (column : Column) : Expr := .column column.home.1 column.home.2

def name : Column → String
  | fileId => "file_id"
  | sha256 => "sha256"
  | path => "path"
  | filename => "filename"
  | lastModified => "last_modified"
  | itemId => "item_id"
  | md5 => "md5"
  | type => "type"
  | size => "size"
  | width => "width"
  | height => "height"
  | duration => "duration"
  | timeAdded => "time_added"
  | audioTracks => "audio_tracks"
  | videoTracks => "video_tracks"
  | subtitleTracks => "subtitle_tracks"
  | blurhash => "blurhash"
  | outroKind => "outro_kind"
  | contentEndMs => "content_end_ms"
  | videoCodec => "video_codec"
  | audioCodec => "audio_codec"
  | dataId => "data_id"
  | language => "language"
  | languageConfidence => "language_confidence"
  | text => "text"
  | confidence => "confidence"
  | textLength => "text_length"
  | jobId => "job_id"
  | setterId => "setter_id"
  | setterName => "setter_name"
  | dataIndex => "data_index"
  | sourceId => "source_id"

/-- What a column holds. -/
inductive Kind where
  | int
  | float
  | string
deriving DecidableEq

/-- A finite 64-bit float is the rational it denotes. -/
def Kind.Domain : Kind → Type
  | int => Int
  | float => ℚ
  | string => String

def kind : Column → Kind
  | fileId | itemId | size | width | height | audioTracks | videoTracks | subtitleTracks
  | contentEndMs | dataId | textLength | jobId | setterId | dataIndex | sourceId => .int
  | duration | languageConfidence | confidence => .float
  | _ => .string

abbrev Domain (column : Column) : Type := column.kind.Domain

/-- The order in which a match filter visits its fields. -/
def collected : List Column :=
  [fileId, itemId, path, filename, sha256, lastModified, type, size, width, height, duration,
   timeAdded, md5, audioTracks, videoTracks, subtitleTracks, blurhash, outroKind, contentEndMs,
   videoCodec, audioCodec, dataId, language, languageConfidence, text, confidence, textLength,
   jobId, setterId, setterName, dataIndex, sourceId]

theorem mem_collected (column : Column) : column ∈ collected := by
  cases column <;> decide

end Column

end Panoptikon.Pql
